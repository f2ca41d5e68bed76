import MattSql.ColumnNamesProofs
import MattSql.Library.SequentialLogicProofs
import MattSql.ReferenceProofs

/-! # Laws of SELECT

    A WHERE clause keeps a row when its condition is TRUE and drops it when it
    is FALSE; at any other row, where a NULL or a failure comes out, the whole
    SELECT fails.  So a condition is a partial predicate on rows, and the
    operators act on it as those of sequential logic.

    `where_restated` says that rewriting a condition by the laws of that logic,
    and by the laws of comparisons, anywhere in it, changes no result.  The other
    laws compare whole queries.  The rows kept by a condition and by its negation
    are all rows (`where_partition`), WHERE keeps the rows at which SELECT shows
    TRUE (`where_flags`), and a SELECT list is evaluated part by part
    (`select_lists_append`). -/

namespace MattSql

open Fallible SequentialLogic

/-! ## Conditions as partial predicates -/

/-- Whether a bound condition keeps a row; `none` where it is neither TRUE nor
    FALSE. -/
def decision (schema : TableSchema) (row : List Value) (e : BoundExpression) : Option Bool :=
  match evaluate ⟨some schema, some row⟩ e with
  | .ok (.boolean keeps) => some keeps
  | _ => none

/-- A condition over a table: `none` when the binder refuses it in a WHERE
    clause. -/
def condition (table : Option TableInfo) (e : Expression) :
    Option (TableSchema → List Value → Option Bool) :=
  match bindExpression table e with
  | .ok bound =>
    if bound.type = .boolean then some fun schema row => decision schema row bound else none
  | .error _ => none

variable {schema : TableSchema} {row : List Value} {table : Option TableInfo}

theorem decision_some_iff {e : BoundExpression} {keeps : Bool} :
    decision schema row e = some keeps
      ↔ evaluate ⟨some schema, some row⟩ e = .ok (.boolean keeps) := by
  rw [decision]
  cases evaluate ⟨some schema, some row⟩ e with
  | error st => exact ⟨nofun, nofun⟩
  | ok value =>
      cases value with
      | boolean b =>
          constructor
          · intro h
            cases h
            rfl
          · intro h
            cases h
            rfl
      | _ => exact ⟨nofun, nofun⟩

theorem decision_not (type : SqlType) (e : BoundExpression) :
    decision schema row (.unary type .not e) = neg (decision schema row e) := by
  rw [decision, decision, evaluate]
  cases evaluate ⟨some schema, some row⟩ e with
  | error st => rfl
  | ok value => cases value <;> rfl

theorem decision_and (type : SqlType) (e f : BoundExpression) :
    decision schema row (.binary type e .and f)
      = conj (decision schema row e) (decision schema row f) := by
  rw [decision, decision, decision, evaluate, evaluateBinary, evaluateLogicalAnd, evaluateLogical]
  cases evaluate ⟨some schema, some row⟩ e with
  | error st => rfl
  | ok value =>
      cases value with
      | boolean b =>
          cases b with
          | false => rfl
          | true =>
              cases evaluate ⟨some schema, some row⟩ f with
              | error st => rfl
              | ok value' => cases value' <;> rfl
      | _ => rfl

theorem decision_or (type : SqlType) (e f : BoundExpression) :
    decision schema row (.binary type e .or f)
      = disj (decision schema row e) (decision schema row f) := by
  rw [decision, decision, decision, evaluate, evaluateBinary, evaluateLogicalOr, evaluateLogical]
  cases evaluate ⟨some schema, some row⟩ e with
  | error st => rfl
  | ok value =>
      cases value with
      | boolean b =>
          cases b with
          | true => rfl
          | false =>
              cases evaluate ⟨some schema, some row⟩ f with
              | error st => rfl
              | ok value' => cases value' <;> rfl
      | _ => rfl

theorem condition_not (e : Expression) :
    condition table (.unary .not e)
      = (condition table e).map fun d schema row => neg (d schema row) := by
  rw [condition, condition, bindExpression]
  cases bindExpression table e with
  | error st => rfl
  | ok bound =>
      rw [ok_bind, bindUnary]
      dsimp only
      by_cases htype : bound.type = .boolean
      · rw [if_neg (not_not_intro htype), if_pos htype, Option.map_some]
        dsimp only
        rw [if_pos (show (BoundExpression.unary .boolean .not bound).type = .boolean from rfl)]
        simp only [decision_not]
      · rw [if_pos htype, if_neg htype]
        rfl

/-- AND and OR, given what they make of the decisions. -/
private theorem condition_logical {op : BinaryOperator}
    {combine : Option Bool → Option Bool → Option Bool} (harith : isArithmetic op = false)
    (hop : isBooleanOperator op = true)
    (hdecision : ∀ schema row type e f, decision schema row (.binary type e op f)
      = combine (decision schema row e) (decision schema row f)) (e f : Expression) :
    condition table (.binary e op f)
      = (condition table e).bind fun d => (condition table f).map fun d' schema row =>
        combine (d schema row) (d' schema row) := by
  rw [condition, condition, condition, bindExpression]
  cases bindExpression table e with
  | error st => rfl
  | ok bound =>
      cases bindExpression table f with
      | error st =>
          dsimp only
          by_cases htype : bound.type = .boolean
          · rw [if_pos htype]
            rfl
          · rw [if_neg htype]
            rfl
      | ok bound' =>
          rw [ok_bind, ok_bind, bindBinary, harith, hop, if_neg Bool.false_ne_true, if_pos rfl]
          dsimp only
          by_cases htype : bound.type = .boolean
          · by_cases htype' : bound'.type = .boolean
            · rw [if_neg (not_or_intro (not_not_intro htype) (not_not_intro htype')),
                if_pos htype, if_pos htype', Option.bind_some, Option.map_some]
              dsimp only
              rw [if_pos (show (BoundExpression.binary .boolean bound op bound').type = .boolean
                from rfl)]
              simp only [hdecision]
            · rw [if_pos (.inr htype'), if_neg htype', if_pos htype]
              rfl
          · rw [if_pos (.inl htype), if_neg htype]
            rfl

theorem condition_and (e f : Expression) :
    condition table (.binary e .and f)
      = (condition table e).bind fun d => (condition table f).map fun d' schema row =>
        conj (d schema row) (d' schema row) :=
  condition_logical rfl rfl (fun _ _ => decision_and) e f

theorem condition_or (e f : Expression) :
    condition table (.binary e .or f)
      = (condition table e).bind fun d => (condition table f).map fun d' schema row =>
        disj (d schema row) (d' schema row) :=
  condition_logical rfl rfl (fun _ _ => decision_or) e f

theorem condition_literal (keeps : Bool) :
    condition table (.booleanLiteral keeps) = some fun _ _ => some keeps := rfl

/-! ## Comparisons -/

/-- The comparison that says the same of the operands exchanged. -/
def BinaryOperator.mirrored : BinaryOperator → BinaryOperator
  | .less => .greater
  | .lessEqual => .greaterEqual
  | .greater => .less
  | .greaterEqual => .lessEqual
  | op => op

/-- The ordering that holds where this one does not. -/
def BinaryOperator.opposite : BinaryOperator → BinaryOperator
  | .less => .greaterEqual
  | .lessEqual => .greater
  | .greater => .lessEqual
  | .greaterEqual => .less
  | op => op

/-- `CompareValues` of the operands' values, where it has a result. -/
def comparison (left right : Result Value) : Option Int :=
  match left, right with
  | .ok l, .ok r => okValue (compareValues l r)
  | _, _ => none

private theorem sign_swap {p q : Prop} [Decidable p] [Decidable q] (h : p → ¬q) :
    (if q then (-1 : Int) else if p then 1 else 0) = -(if p then -1 else if q then 1 else 0) := by
  by_cases hp : p
  · rw [if_neg (h hp), if_pos hp, if_pos hp]
    rfl
  · rw [if_neg hp, if_neg hp]
    split <;> rfl

/-- Exchanging the operands negates the comparison. -/
theorem compareValues_swap (l r : Value) :
    okValue (compareValues r l) = (okValue (compareValues l r)).map (- ·) := by
  -- integral values compare as integers and texts as texts; nothing else compares
  have hintegral : ∀ i j : Int64, some (if j < i then (-1 : Int) else if i < j then 1 else 0)
      = (some (if i < j then (-1 : Int) else if j < i then 1 else 0)).map (- ·) :=
    fun i j => congrArg some (sign_swap Int64.lt_asymm)
  have htext : ∀ s t : Bytes, okValue (compareValues (.text t) (.text s))
      = (okValue (compareValues (.text s) (.text t))).map (- ·) :=
    fun s t => congrArg some (sign_swap (List.lt_asymm (α := UInt8)))
  cases l with
  | null => cases r <;> rfl
  | text s =>
      cases r with
      | text t => exact htext s t
      | _ => rfl
  | integer i =>
      cases r with
      | integer j => exact hintegral i j
      | boolean b => exact hintegral i _
      | _ => rfl
  | boolean b =>
      cases r with
      | integer j => exact hintegral _ j
      | boolean c => exact hintegral _ _
      | _ => rfl

/-- The value of an ordering comparison. -/
theorem decision_ordering {op : BinaryOperator} (hop : isOrderingComparison op)
    (type : SqlType) (e f : BoundExpression) :
    decision schema row (.binary type e op f)
      = (comparison (evaluate ⟨some schema, some row⟩ e)
          (evaluate ⟨some schema, some row⟩ f)).bind (orderingHolds op) := by
  have heval : evaluate ⟨some schema, some row⟩ (.binary type e op f) = (do
      let l ← evaluate ⟨some schema, some row⟩ e
      let r ← evaluate ⟨some schema, some row⟩ f
      let c ← compareValues l r
      (orderingHolds op c).elim (errorResult .executionError (ascii "unknown binary operator"))
        fun holds => .ok (.boolean holds)) := by
    cases op with
    | less | lessEqual | greater | greaterEqual => rfl
    | _ => exact absurd hop (by decide)
  rw [decision, heval]
  cases evaluate ⟨some schema, some row⟩ e with
  | error st => rfl
  | ok l =>
      cases evaluate ⟨some schema, some row⟩ f with
      | error st => rfl
      | ok r =>
          rw [comparison, ok_bind, ok_bind]
          cases compareValues l r with
          | error st => rfl
          | ok c =>
              show _ = orderingHolds op c
              rw [ok_bind]
              cases orderingHolds op c <;> rfl

theorem comparison_swap (left right : Result Value) :
    comparison right left = (comparison left right).map (- ·) := by
  cases left with
  | error st => cases right <;> rfl
  | ok l =>
      cases right with
      | error st => rfl
      | ok r => exact compareValues_swap l r

theorem orderingHolds_mirrored {op : BinaryOperator} (hop : isOrderingComparison op) (c : Int) :
    orderingHolds op.mirrored (-c) = orderingHolds op c := by
  cases op with
  | less | lessEqual | greater | greaterEqual =>
      simp only [BinaryOperator.mirrored, orderingHolds, Option.some.injEq, decide_eq_decide]
      omega
  | _ => exact absurd hop (by decide)

theorem orderingHolds_opposite {op : BinaryOperator} (hop : isOrderingComparison op) (c : Int) :
    orderingHolds op.opposite c = (orderingHolds op c).map (!·) := by
  cases op with
  | less | lessEqual | greater | greaterEqual =>
      simp only [BinaryOperator.opposite, orderingHolds, Option.map_some, Option.some.injEq,
        ← decide_not, decide_eq_decide]
      omega
  | _ => exact absurd hop (by decide)

/-- An equality comparison of the operands' values: not satisfied by a NULL. -/
def equality (op : BinaryOperator) (left right : Result Value) : Option Bool :=
  match left, right with
  | .ok l, .ok r =>
    if isNull l ∨ isNull r then some false
    else (okValue (compareValues l r)).map fun c => decide (c = 0) == decide (op = .equal)
  | _, _ => none

theorem decision_equality {op : BinaryOperator} (hop : isEqualityComparison op)
    (type : SqlType) (e f : BoundExpression) :
    decision schema row (.binary type e op f)
      = equality op (evaluate ⟨some schema, some row⟩ e) (evaluate ⟨some schema, some row⟩ f) := by
  have heval : evaluate ⟨some schema, some row⟩ (.binary type e op f) = (do
      let l ← evaluate ⟨some schema, some row⟩ e
      let r ← evaluate ⟨some schema, some row⟩ f
      evaluateOperands op l r) := by
    cases op with
    | equal | notEqual => rfl
    | _ => exact nomatch hop
  rw [decision, heval]
  cases evaluate ⟨some schema, some row⟩ e with
  | error st => rfl
  | ok l =>
      cases evaluate ⟨some schema, some row⟩ f with
      | error st => rfl
      | ok r =>
          rw [equality, ok_bind, ok_bind]
          by_cases hnull : isNull l ∨ isNull r
          · cases op with
            | equal | notEqual =>
                rw [evaluateOperands, if_pos hnull, if_pos hnull]
            | _ => exact nomatch hop
          · cases op with
            | equal =>
                rw [evaluateOperands, if_neg hnull, if_neg hnull]
                cases compareValues l r with
                | error st => rfl
                | ok c => exact congrArg some (beq_true (decide (c = 0))).symm
            | notEqual =>
                rw [evaluateOperands, if_neg hnull, if_neg hnull]
                cases compareValues l r with
                | error st => rfl
                | ok c => exact congrArg some (decide_not.trans (beq_false (decide (c = 0))).symm)
            | _ => exact nomatch hop

theorem equality_swap (op : BinaryOperator) (left right : Result Value) :
    equality op right left = equality op left right := by
  cases left with
  | error st => cases right <;> rfl
  | ok l =>
      cases right with
      | error st => rfl
      | ok r =>
          rw [equality, equality, compareValues_swap, Option.map_map]
          simp only [Function.comp_def, Int.neg_eq_zero, or_comm]

/-! ## Rewriting a condition -/

/-- Two conditions that say the same by the laws of sequential logic and of
    comparisons.  A law may be used under NOT, AND and OR, not under a
    comparison: `NOT NOT p = TRUE` fails where `p` is NULL, and `p = TRUE` does
    not. -/
inductive Expression.Restates : Expression → Expression → Prop
  | refl (e) : Restates e e
  | symm {e f} : Restates e f → Restates f e
  | trans {e f g} : Restates e f → Restates f g → Restates e g
  | under_not {e f} : Restates e f → Restates (.unary .not e) (.unary .not f)
  | under_and {e e' f f'} : Restates e e' → Restates f f' →
      Restates (.binary e .and f) (.binary e' .and f')
  | under_or {e e' f f'} : Restates e e' → Restates f f' →
      Restates (.binary e .or f) (.binary e' .or f')
  | not_not (e) : Restates (.unary .not (.unary .not e)) e
  | not_and (e f) : Restates (.unary .not (.binary e .and f))
      (.binary (.unary .not e) .or (.unary .not f))
  | not_or (e f) : Restates (.unary .not (.binary e .or f))
      (.binary (.unary .not e) .and (.unary .not f))
  | and_assoc (e f g) : Restates (.binary (.binary e .and f) .and g)
      (.binary e .and (.binary f .and g))
  | or_assoc (e f g) : Restates (.binary (.binary e .or f) .or g)
      (.binary e .or (.binary f .or g))
  | and_self (e) : Restates (.binary e .and e) e
  | or_self (e) : Restates (.binary e .or e) e
  | true_and (e) : Restates (.binary (.booleanLiteral true) .and e) e
  | and_true (e) : Restates (.binary e .and (.booleanLiteral true)) e
  | false_or (e) : Restates (.binary (.booleanLiteral false) .or e) e
  | or_false (e) : Restates (.binary e .or (.booleanLiteral false)) e
  | and_or (e f g) : Restates (.binary e .and (.binary f .or g))
      (.binary (.binary e .and f) .or (.binary e .and g))
  | or_and (e f g) : Restates (.binary e .or (.binary f .and g))
      (.binary (.binary e .or f) .and (.binary e .or g))
  | mirrored {op} (e f) : (isEqualityComparison op || isOrderingComparison op) = true →
      Restates (.binary e op f) (.binary f op.mirrored e)
  | opposite {op} (e f) : isOrderingComparison op = true →
      Restates (.unary .not (.binary e op f)) (.binary e op.opposite f)

/-- What a comparison binds to. -/
private theorem condition_comparison {op : BinaryOperator}
    (comparable : BoundExpression → BoundExpression → Bool)
    (value : Result Value → Result Value → Option Bool)
    (hbind : ∀ e f, (comparable e f = true ∧ bindBinary e op f = .ok (.binary .boolean e op f))
      ∨ (comparable e f = false ∧ ∃ st, bindBinary e op f = .error st))
    (hdecision : ∀ schema row type e f, decision schema row (.binary type e op f)
      = value (evaluate ⟨some schema, some row⟩ e) (evaluate ⟨some schema, some row⟩ f))
    (e f : Expression) :
    condition table (.binary e op f)
      = (okValue (bindExpression table e)).bind fun e =>
        (okValue (bindExpression table f)).bind fun f =>
          if comparable e f then some fun schema row =>
            value (evaluate ⟨some schema, some row⟩ e) (evaluate ⟨some schema, some row⟩ f)
          else none := by
  rw [condition, bindExpression]
  cases bindExpression table e with
  | error st => rfl
  | ok e =>
      cases bindExpression table f with
      | error st => rfl
      | ok f =>
          show _ = if comparable e f then _ else none
          rw [ok_bind, ok_bind]
          rcases hbind e f with ⟨hcmp, h⟩ | ⟨hcmp, st, h⟩
          · rw [h, if_pos hcmp]
            dsimp only
            rw [if_pos (show (BoundExpression.binary .boolean e op f).type = .boolean from rfl)]
            simp only [hdecision]
          · rw [h, hcmp]
            rfl

theorem condition_ordering {op : BinaryOperator} (hop : isOrderingComparison op)
    (e f : Expression) :
    condition table (.binary e op f)
      = (okValue (bindExpression table e)).bind fun e =>
        (okValue (bindExpression table f)).bind fun f =>
          if orderingComparable e.type f.type then some fun schema row =>
            (comparison (evaluate ⟨some schema, some row⟩ e)
              (evaluate ⟨some schema, some row⟩ f)).bind (orderingHolds op)
          else none := by
  refine condition_comparison (fun e f => orderingComparable e.type f.type)
    (fun l r => (comparison l r).bind (orderingHolds op)) (fun e f => ?_)
    (fun _ _ => decision_ordering hop) e f
  have hbind : bindBinary e op f = if ¬ orderingComparable e.type f.type then
      errorResult .typeMismatch (ascii "ordering comparison operands have incompatible types")
      else .ok (.binary .boolean e op f) := by
    cases op with
    | less | lessEqual | greater | greaterEqual => rfl
    | _ => exact nomatch hop
  cases hcmp : orderingComparable e.type f.type with
  | true => exact .inl ⟨rfl, by rw [hbind, hcmp, if_neg (not_not_intro rfl)]⟩
  | false => exact .inr ⟨rfl, _, by rw [hbind, hcmp, if_pos Bool.false_ne_true]; rfl⟩

theorem condition_equality {op : BinaryOperator} (hop : isEqualityComparison op)
    (e f : Expression) :
    condition table (.binary e op f)
      = (okValue (bindExpression table e)).bind fun e =>
        (okValue (bindExpression table f)).bind fun f =>
          if equalityComparable e f then some fun schema row =>
            equality op (evaluate ⟨some schema, some row⟩ e) (evaluate ⟨some schema, some row⟩ f)
          else none := by
  refine condition_comparison equalityComparable (equality op) (fun e f => ?_)
    (fun _ _ => decision_equality hop) e f
  have hbind : bindBinary e op f = if ¬ equalityComparable e f then
      errorResult .typeMismatch (ascii "equality comparison operands have incompatible types")
      else .ok (.binary .boolean e op f) := by
    cases op with
    | equal | notEqual => rfl
    | _ => exact nomatch hop
  cases hcmp : equalityComparable e f with
  | true => exact .inl ⟨rfl, by rw [hbind, hcmp, if_neg (not_not_intro rfl)]⟩
  | false => exact .inr ⟨rfl, _, by rw [hbind, hcmp, if_pos Bool.false_ne_true]; rfl⟩

theorem equalityComparable_comm (e f : BoundExpression) :
    equalityComparable e f = equalityComparable f e := by
  rw [equalityComparable, equalityComparable, decide_eq_decide, eq_comm (a := e.type)]
  tauto

theorem orderingComparable_comm (t u : SqlType) :
    orderingComparable t u = orderingComparable u t := by
  rw [orderingComparable, orderingComparable, decide_eq_decide]
  constructor
  · rintro ⟨rfl, h⟩
    exact ⟨rfl, h⟩
  · rintro ⟨rfl, h⟩
    exact ⟨rfl, h⟩

theorem isOrderingComparison_mirrored {op : BinaryOperator} (hop : isOrderingComparison op) :
    isOrderingComparison op.mirrored := by
  cases op <;> first | rfl | exact nomatch hop

theorem isOrderingComparison_opposite {op : BinaryOperator} (hop : isOrderingComparison op) :
    isOrderingComparison op.opposite := by
  cases op <;> first | rfl | exact nomatch hop

theorem condition_mirrored {op : BinaryOperator}
    (hop : (isEqualityComparison op || isOrderingComparison op) = true) (e f : Expression) :
    condition table (.binary f op.mirrored e) = condition table (.binary e op f) := by
  rcases (Bool.or_eq_true _ _).mp hop with hop | hop
  · have hmirror : op.mirrored = op := by
      cases op <;> first | rfl | exact nomatch hop
    rw [hmirror, condition_equality hop, condition_equality hop, Option.bind_comm]
    simp only [equalityComparable_comm, equality_swap]
  · rw [condition_ordering hop, condition_ordering (isOrderingComparison_mirrored hop),
      Option.bind_comm]
    have hvalue : ∀ l r, (comparison r l).bind (orderingHolds op.mirrored)
        = (comparison l r).bind (orderingHolds op) := by
      intro l r
      rw [comparison_swap]
      cases comparison l r with
      | none => rfl
      | some c => exact orderingHolds_mirrored hop c
    simp only [hvalue]
    congr 1
    funext b
    congr 1
    funext b'
    rw [orderingComparable_comm]

theorem condition_opposite {op : BinaryOperator} (hop : isOrderingComparison op)
    (e f : Expression) :
    condition table (.unary .not (.binary e op f)) = condition table (.binary e op.opposite f) := by
  rw [condition_not, condition_ordering hop,
    condition_ordering (isOrderingComparison_opposite hop)]
  have hvalue : ∀ l r, neg ((comparison l r).bind (orderingHolds op))
      = (comparison l r).bind (orderingHolds op.opposite) := by
    intro l r
    cases comparison l r with
    | none => rfl
    | some c => exact (orderingHolds_opposite hop c).symm
  cases okValue (bindExpression table e) with
  | none => rfl
  | some b =>
      cases okValue (bindExpression table f) with
      | none => rfl
      | some b' =>
          simp only [Option.bind_some]
          split
          · simp only [Option.map_some, hvalue]
          · rfl

/-- **RESTATING**: both conditions bind, and decide alike, or neither does. -/
theorem Expression.Restates.condition_eq {e f : Expression} (h : e.Restates f) :
    condition table e = condition table f := by
  induction h with
  | refl e => rfl
  | symm _ ih => exact ih.symm
  | trans _ _ ih ih' => exact ih.trans ih'
  | under_not _ ih => rw [condition_not, condition_not, ih]
  | under_and _ _ ih ih' => rw [condition_and, condition_and, ih, ih']
  | under_or _ _ ih ih' => rw [condition_or, condition_or, ih, ih']
  | not_not e =>
      rw [condition_not, condition_not]
      cases condition table e with
      | none => rfl
      | some d => simp only [Option.map_some, neg_neg]
  | not_and e f =>
      rw [condition_not, condition_and, condition_or, condition_not, condition_not]
      cases condition table e with
      | none => rfl
      | some d => cases condition table f <;> simp [neg_conj]
  | not_or e f =>
      rw [condition_not, condition_or, condition_and, condition_not, condition_not]
      cases condition table e with
      | none => rfl
      | some d => cases condition table f <;> simp [neg_disj]
  | and_assoc e f g =>
      simp only [condition_and]
      cases condition table e with
      | none => rfl
      | some d =>
          cases condition table f with
          | none => rfl
          | some d' => cases condition table g <;> simp [conj_assoc]
  | or_assoc e f g =>
      simp only [condition_or]
      cases condition table e with
      | none => rfl
      | some d =>
          cases condition table f with
          | none => rfl
          | some d' => cases condition table g <;> simp [disj_assoc]
  | and_self e =>
      rw [condition_and]
      cases condition table e <;> simp [conj_self]
  | or_self e =>
      rw [condition_or]
      cases condition table e <;> simp [disj_self]
  | true_and e =>
      rw [condition_and, condition_literal]
      cases condition table e <;> rfl
  | and_true e =>
      rw [condition_and, condition_literal]
      cases condition table e <;> simp [conj_true]
  | false_or e =>
      rw [condition_or, condition_literal]
      cases condition table e <;> rfl
  | or_false e =>
      rw [condition_or, condition_literal]
      cases condition table e <;> simp [disj_false]
  | and_or e f g =>
      simp only [condition_and, condition_or]
      cases condition table e with
      | none => rfl
      | some d =>
          cases condition table f with
          | none => rfl
          | some d' => cases condition table g <;> simp [conj_disj]
  | or_and e f g =>
      simp only [condition_and, condition_or]
      cases condition table e with
      | none => rfl
      | some d =>
          cases condition table f with
          | none => rfl
          | some d' => cases condition table g <;> simp [disj_conj]
  | mirrored e f hop => exact (condition_mirrored hop e f).symm
  | opposite e f hop => exact condition_opposite hop e f

/-! ## SELECT under a condition -/

/-- The condition of an optional WHERE clause; without one every row is kept. -/
def whereCondition (table : Option TableInfo) :
    Option Expression → Option (TableSchema → List Value → Option Bool)
  | none => some fun _ _ => some true
  | some predicate => condition table predicate

/-- What a SELECT replies with: every row is decided, and the kept rows are
    projected. -/
structure SelectYields (bounds : List (BoundExpression × Bytes)) (schema : TableSchema)
    (decides : List Value → Option Bool) (rows : List (List Value)) (r : QueryResult) :
    Prop where
  decided : ∀ row ∈ rows, ∃ keeps, decides row = some keeps
  evaluates : ∀ row ∈ rows, decides row = some true →
    ProjectionsEvaluate (bounds.map (·.1)) schema row
  result : r = ⟨outputNames (bounds.map (·.1)) (bounds.map (·.2)),
    (rows.filter (decides · = some true)).map fun row =>
      (bounds.map (·.1)).map (valueAt schema row)⟩

/-- `decision` of an optional predicate. -/
def whereDecision (p : Option BoundExpression) (schema : TableSchema) (row : List Value) :
    Option Bool :=
  match p with
  | none => some true
  | some p => decision schema row p

/-- A bound predicate and the condition it stands for. -/
theorem bindPredicate_condition (predicate : Option Expression) :
    (∃ p, bindPredicate table predicate = .ok p
        ∧ whereCondition table predicate = some (whereDecision p))
      ∨ (∃ st, bindPredicate table predicate = .error st) ∧ whereCondition table predicate = none := by
  cases predicate with
  | none => exact .inl ⟨none, rfl, rfl⟩
  | some e =>
      rw [bindPredicate, whereCondition, condition]
      cases bindExpression table e with
      | error st => exact .inr ⟨⟨st, rfl⟩, rfl⟩
      | ok b =>
          dsimp only
          rw [ok_bind]
          by_cases htype : b.type = .boolean
          · rw [if_neg (not_not_intro htype), if_pos htype]
            exact .inl ⟨some b, rfl, rfl⟩
          · rw [if_pos htype, if_neg htype]
            exact .inr ⟨⟨_, rfl⟩, rfl⟩

theorem whereDecides_iff {p : Option BoundExpression} :
    WhereDecides p schema row
      ↔ ∃ keeps, whereDecision p schema row = some keeps := by
  cases p with
  | none => exact ⟨fun _ => ⟨true, rfl⟩, fun _ => nofun⟩
  | some p => simp [WhereDecides, Decides, whereDecision, decision_some_iff]

theorem whereHolds_iff {p : Option BoundExpression} :
    WhereHolds p schema row ↔ whereDecision p schema row = some true := by
  cases p with
  | none => exact ⟨fun _ => rfl, fun _ => nofun⟩
  | some p => simp [WhereHolds, Satisfies, whereDecision, decision_some_iff]

theorem selectReply_iff {bounds : List (BoundExpression × Bytes)} {p : Option BoundExpression}
    {rows : List (List Value)} {r : QueryResult} :
    selectReply (bounds.map (·.1)) (bounds.map (·.2)) schema p rows = .ok r
      ↔ SelectYields bounds schema (whereDecision p schema) rows r := by
  have hkept : rows.filter (WhereHolds p schema ·)
      = rows.filter (whereDecision p schema · = some true) := by
    simp only [whereHolds_iff]
  rw [selectReply, bind_ok_iff]
  constructor
  · rintro ⟨kept, hkeep, h⟩
    obtain ⟨output, houtput, h⟩ := bind_ok_iff.mp h
    cases h
    obtain ⟨hdecides, rfl⟩ := keptRows_ok_iff.mp hkeep
    obtain ⟨hevaluate, rfl⟩ := projectRows_ok_iff.mp houtput
    refine ⟨fun row hrow => whereDecides_iff.mp (hdecides row hrow), ?_, by rw [hkept]⟩
    intro row hrow hkeeps
    exact hevaluate row (List.mem_filter.mpr ⟨hrow, decide_eq_true (whereHolds_iff.mpr hkeeps)⟩)
  · rintro ⟨hdecided, hevaluates, rfl⟩
    refine ⟨_, keptRows_ok_iff.mpr
      ⟨fun row hrow => whereDecides_iff.mpr (hdecided row hrow), rfl⟩, ?_⟩
    have houtput : projectRows (bounds.map (·.1)) schema (rows.filter (WhereHolds p schema ·))
        = .ok _ := projectRows_ok_iff.mpr ⟨fun row hrow => by
      obtain ⟨hmem, hholds⟩ := List.mem_filter.mp hrow
      exact hevaluates row hmem (whereHolds_iff.mp (of_decide_eq_true hholds)), rfl⟩
    rw [houtput, hkept]
    rfl

/-- **WHAT A SELECT REPLIES**, in terms of its condition. -/
theorem execute_select_iff {db : Database} (hdb : db.Consistent) {sql : Bytes}
    {projections : List SelectProjection} {tableName : Bytes} {predicate : Option Expression}
    (hparse : parseSql sql = .ok (.select projections tableName predicate)) {r : QueryResult} :
    (execute db sql).1 = .ok r
      ↔ ∃ table bounds d, bindFrom db.catalog.getTable tableName = .ok table
        ∧ bindProjections table projections = .ok bounds
        ∧ whereCondition table predicate = some d
        ∧ SelectYields bounds (table.getD {}).schema (d (table.getD {}).schema)
            (db.sourceRows (table.getD {})) r := by
  have hrun : ∀ {table bounds p}, bindFrom db.catalog.getTable tableName = .ok table →
      bindProjections table projections = .ok bounds → bindPredicate table predicate = .ok p →
      ((execute db sql).1 = .ok r
        ↔ SelectYields bounds (table.getD {}).schema (whereDecision p (table.getD {}).schema)
            (db.sourceRows (table.getD {})) r) := by
    intro table bounds p hfrom hbounds hp
    have hbind : bind db.catalog.getTable (.select projections tableName predicate)
        = .ok (.select (bounds.map (·.1)) (bounds.map (·.2)) (table.getD {}) p) := by
      rw [bind, bindSelect, hfrom, ok_bind, hbounds, ok_bind, hp]
      rfl
    rw [execute_eq_runBound hparse hbind]
    cases hdb.boundIn hparse hbind with
    | select hbound hsource => rw [hbound.run hdb hsource, selectReply_iff]
  constructor
  · intro h
    cases hbind : bind db.catalog.getTable (.select projections tableName predicate) with
    | error st =>
        rw [execute, executeIn, hparse] at h
        dsimp only at h
        rw [hbind] at h
        cases h
    | ok bound =>
        obtain ⟨table, hfrom, h'⟩ := bind_ok_iff.mp hbind
        obtain ⟨bounds, hbounds, h'⟩ := bind_ok_iff.mp h'
        obtain ⟨p, hp, -⟩ := bind_ok_iff.mp h'
        rcases bindPredicate_condition predicate with ⟨p', hp', hd⟩ | ⟨⟨st, hst⟩, -⟩
        · cases hp.symm.trans hp'
          exact ⟨table, bounds, _, hfrom, hbounds, hd, (hrun hfrom hbounds hp).mp h⟩
        · cases hp.symm.trans hst
  · rintro ⟨table, bounds, d, hfrom, hbounds, hd, hyields⟩
    rcases bindPredicate_condition predicate with ⟨p, hp, hd'⟩ | ⟨-, hnone⟩
    · cases hd.symm.trans hd'
      exact (hrun hfrom hbounds hp).mpr hyields
    · cases hd.symm.trans hnone

/-- **RESTATED CONDITIONS**: two SELECTs whose WHERE clauses restate each other
    give the same results, in every state an engine can get into. -/
theorem where_restated (texts : List Bytes) {sql sql' : Bytes}
    {projections : List SelectProjection} {tableName : Bytes} {p p' : Expression}
    (hparse : parseSql sql = .ok (.select projections tableName (some p)))
    (hparse' : parseSql sql' = .ok (.select projections tableName (some p')))
    (h : p.Restates p') (r : QueryResult) :
    (execute (engineAfter texts) sql).1 = .ok r ↔ (execute (engineAfter texts) sql').1 = .ok r := by
  have hdb := engineAfter_consistent texts
  have hwhere : ∀ table, whereCondition table (some p) = whereCondition table (some p') :=
    fun _ => h.condition_eq
  rw [execute_select_iff hdb hparse, execute_select_iff hdb hparse']
  simp only [hwhere]

/-- De Morgan and a negated ordering, over two stored rows. -/
theorem where_restated_ordering :
    let texts := [ascii "CREATE TABLE t (x INT)", ascii "INSERT INTO t VALUES (1)",
      ascii "INSERT INTO t VALUES (5)"]
    (execute (engineAfter texts) (ascii "SELECT x FROM t WHERE NOT (x < 2 OR 7 = x)")).1
      = .ok ⟨[ascii "x"], [[.integer 5]]⟩ := by
  intro texts
  let x : Expression := .columnRef (ascii "x")
  let p : Expression := .unary .not
    (.binary (.binary x .less (.integerLiteral 2)) .or (.binary (.integerLiteral 7) .equal x))
  let p' : Expression := .binary (.binary x .greaterEqual (.integerLiteral 2)) .and
    (.unary .not (.binary x .equal (.integerLiteral 7)))
  obtain ⟨hparse, hparse', hreply⟩ :
      parseSql (ascii "SELECT x FROM t WHERE NOT (x < 2 OR 7 = x)")
        = .ok (.select [⟨x, []⟩] (ascii "t") (some p))
      ∧ parseSql (ascii "SELECT x FROM t WHERE x >= 2 AND NOT (x = 7)")
        = .ok (.select [⟨x, []⟩] (ascii "t") (some p'))
      ∧ (execute (engineAfter texts) (ascii "SELECT x FROM t WHERE x >= 2 AND NOT (x = 7)")).1
        = .ok ⟨[ascii "x"], [[.integer 5]]⟩ := by
    decide +kernel
  have h : p.Restates p' := (Expression.Restates.not_or _ _).trans
    (.under_and (.opposite _ _ rfl) (.under_not (.mirrored _ _ rfl)))
  exact (where_restated texts hparse hparse' h _).mpr hreply

/-- Where the SELECT without WHERE answers, one with WHERE answers when its
    condition is decided at every row. -/
private theorem answers_iff {db : Database} (hdb : db.Consistent) {sql sqlWhere : Bytes}
    {projections : List SelectProjection} {tableName : Bytes} {predicate : Option Expression}
    (hparse : parseSql sql = .ok (.select projections tableName none))
    (hparseWhere : parseSql sqlWhere = .ok (.select projections tableName predicate))
    {all : QueryResult} (hall : (execute db sql).1 = .ok all) :
    (∃ r, (execute db sqlWhere).1 = .ok r)
      ↔ ∃ table d, bindFrom db.catalog.getTable tableName = .ok table
        ∧ whereCondition table predicate = some d
        ∧ ∀ row ∈ db.sourceRows (table.getD {}),
            ∃ keeps, d (table.getD {}).schema row = some keeps := by
  obtain ⟨table, bounds, d, hfrom, hbounds, hd, hyields⟩ := (execute_select_iff hdb hparse).mp hall
  cases hd
  constructor
  · rintro ⟨r, hr⟩
    obtain ⟨table', _, d, hfrom', -, hd, hwhere⟩ := (execute_select_iff hdb hparseWhere).mp hr
    exact ⟨table', d, hfrom', hd, hwhere.decided⟩
  · rintro ⟨table', d, hfrom', hd, hdecided⟩
    cases hfrom.symm.trans hfrom'
    have hwhere : SelectYields bounds _ (d (table.getD {}).schema)
        (db.sourceRows (table.getD {})) _ :=
      ⟨hdecided, fun row hrow _ => hyields.evaluates row hrow rfl, rfl⟩
    exact ⟨_, (execute_select_iff hdb hparseWhere).mpr
      ⟨table, bounds, d, hfrom, hbounds, hd, hwhere⟩⟩

/-- Decided rows are kept by the condition or by its negation. -/
private theorem filter_neg_perm {rows : List (List Value)} {d : List Value → Option Bool}
    (hdecided : ∀ row ∈ rows, ∃ keeps, d row = some keeps) :
    rows.Perm (rows.filter (d · = some true)
      ++ rows.filter fun row => neg (d row) = some true) := by
  have hdropped : rows.filter (fun row => neg (d row) = some true)
      = rows.filter fun row => !decide (d row = some true) := by
    refine List.filter_congr fun row hrow => ?_
    obtain ⟨keeps, hkeeps⟩ := hdecided row hrow
    rw [hkeeps]
    cases keeps <;> rfl
  rw [hdropped]
  exact (List.filter_append_perm _ _).symm

/-- **A CONDITION AND ITS NEGATION** part the rows of a SELECT: when both
    queries answer, so does the one without WHERE, with the rows of both; and
    when that one answers, either both do or neither does. -/
theorem where_partition (texts : List Bytes) {sql sqlTrue sqlFalse : Bytes}
    {projections : List SelectProjection} {tableName : Bytes} {p : Expression}
    (hparse : parseSql sql = .ok (.select projections tableName none))
    (hparseTrue : parseSql sqlTrue = .ok (.select projections tableName (some p)))
    (hparseFalse : parseSql sqlFalse
      = .ok (.select projections tableName (some (.unary .not p)))) :
    (∀ r r', (execute (engineAfter texts) sqlTrue).1 = .ok r →
      (execute (engineAfter texts) sqlFalse).1 = .ok r' →
      ∃ rows, (execute (engineAfter texts) sql).1 = .ok ⟨r.columns, rows⟩
        ∧ r'.columns = r.columns ∧ rows.Perm (r.rows ++ r'.rows)
        ∧ r.rows.Sublist rows ∧ r'.rows.Sublist rows)
    ∧ ∀ all, (execute (engineAfter texts) sql).1 = .ok all →
      ((∃ r, (execute (engineAfter texts) sqlTrue).1 = .ok r)
        ↔ ∃ r', (execute (engineAfter texts) sqlFalse).1 = .ok r') := by
  have hdb := engineAfter_consistent texts
  have hnot : ∀ table, whereCondition table (some (.unary .not p))
      = (whereCondition table (some p)).map fun d schema row => neg (d schema row) :=
    fun _ => condition_not p
  constructor
  · intro r r' hr hr'
    obtain ⟨table, bounds, d, hfrom, hbounds, hd, ⟨hdecided, heval, rfl⟩⟩ :=
      (execute_select_iff hdb hparseTrue).mp hr
    obtain ⟨table', bounds', d', hfrom', hbounds', hd', ⟨-, heval', rfl⟩⟩ :=
      (execute_select_iff hdb hparseFalse).mp hr'
    cases hfrom.symm.trans hfrom'
    cases hbounds.symm.trans hbounds'
    rw [hnot, hd] at hd'
    cases hd'
    have hall : ∀ rows : List (List Value),
        rows.filter (fun _ => (some true : Option Bool) = some true) = rows :=
      fun rows => List.filter_eq_self.mpr fun row _ => rfl
    refine ⟨_, (execute_select_iff hdb hparse).mpr ⟨table, bounds, _, hfrom, hbounds, rfl,
      fun row _ => ⟨true, rfl⟩, fun row hrow _ => ?_, by rw [hall]⟩, rfl, ?_,
      List.filter_sublist.map _, List.filter_sublist.map _⟩
    · obtain ⟨keeps, hkeeps⟩ := hdecided row hrow
      cases keeps with
      | true => exact heval row hrow hkeeps
      | false => exact heval' row hrow (neg_eq_some.mpr hkeeps)
    · rw [← List.map_append]
      exact (filter_neg_perm hdecided).map _
  · intro all hall
    rw [answers_iff hdb hparse hparseTrue hall, answers_iff hdb hparse hparseFalse hall]
    constructor
    · rintro ⟨table, d, hfrom, hd, hdecided⟩
      refine ⟨table, _, hfrom, by rw [hnot, hd]; rfl, fun row hrow => ?_⟩
      obtain ⟨keeps, hkeeps⟩ := hdecided row hrow
      exact ⟨!keeps, neg_eq_some.mpr (by rw [hkeeps, Bool.not_not])⟩
    · rintro ⟨table, d', hfrom, hd', hdecided⟩
      rw [hnot] at hd'
      obtain ⟨d, hd, rfl⟩ := Option.map_eq_some_iff.mp hd'
      refine ⟨table, d, hfrom, hd, fun row hrow => ?_⟩
      obtain ⟨keeps, hkeeps⟩ := hdecided row hrow
      exact ⟨!keeps, neg_eq_some.mp hkeeps⟩

/-- Two rows parted by `x < 2`. -/
theorem where_partition_ordering :
    let texts := [ascii "CREATE TABLE t (x INT)", ascii "INSERT INTO t VALUES (5)",
      ascii "INSERT INTO t VALUES (1)"]
    ∃ rows, (execute (engineAfter texts) (ascii "SELECT x FROM t")).1 = .ok ⟨[ascii "x"], rows⟩
      ∧ rows.Perm [[.integer 1], [.integer 5]] := by
  intro texts
  let x : Expression := .columnRef (ascii "x")
  let p : Expression := .binary x .less (.integerLiteral 2)
  obtain ⟨⟨hparse, hparseTrue, hparseFalse⟩, hr, hr'⟩ :
      (parseSql (ascii "SELECT x FROM t") = .ok (.select [⟨x, []⟩] (ascii "t") none)
      ∧ parseSql (ascii "SELECT x FROM t WHERE x < 2")
        = .ok (.select [⟨x, []⟩] (ascii "t") (some p))
      ∧ parseSql (ascii "SELECT x FROM t WHERE NOT (x < 2)")
        = .ok (.select [⟨x, []⟩] (ascii "t") (some (.unary .not p))))
      ∧ (execute (engineAfter texts) (ascii "SELECT x FROM t WHERE x < 2")).1
        = .ok ⟨[ascii "x"], [[.integer 1]]⟩
      ∧ (execute (engineAfter texts) (ascii "SELECT x FROM t WHERE NOT (x < 2)")).1
        = .ok ⟨[ascii "x"], [[.integer 5]]⟩ := by
    decide +kernel
  obtain ⟨rows, hall, -, hperm, -⟩ :=
    (where_partition texts hparse hparseTrue hparseFalse).1 _ _ hr hr'
  exact ⟨rows, hall, hperm⟩

/-- The FROM part names no table, or one of the catalog. -/
theorem bindFrom_ok {db : Database} (hdb : db.Consistent) {tableName : Bytes}
    {table : Option TableInfo} (h : bindFrom db.catalog.getTable tableName = .ok table) :
    db.From (table.getD {}) ∧ ∀ t, table = some t → t.schema.Valid := by
  rw [bindFrom] at h
  split at h
  · cases h
    refine ⟨.inl rfl, ?_⟩
    rintro _ ⟨⟩
  · obtain ⟨t, ht, h⟩ := bind_ok_iff.mp h
    cases h
    have hfound := InMemoryCatalog.getTable_eq_ok.mp ht
    obtain ⟨data, hstores⟩ := hdb.tables _ t hfound
    refine ⟨.inr ⟨_, hfound⟩, ?_⟩
    rintro _ ⟨⟩
    exact hstores.valid

/-- An expression that is TRUE or FALSE at a stored row is BOOLEAN. -/
private theorem boolean_of_value {db : Database} (hdb : db.Consistent) {tableName : Bytes}
    {table : Option TableInfo} (hfrom : bindFrom db.catalog.getTable tableName = .ok table)
    {p : Expression} {b : BoundExpression} (hb : bindExpression table p = .ok b)
    {row : List Value} (hrow : row ∈ db.sourceRows (table.getD {})) {keeps : Bool}
    (hvalue : evaluate ⟨some (table.getD {}).schema, some row⟩ b = .ok (.boolean keeps)) :
    b.type = .boolean := by
  obtain ⟨hsource, hvalid⟩ := bindFrom_ok hdb hfrom
  have htyped := bindExpression_wellTyped hvalid hb
  rw [show scopeColumns table = (table.getD {}).schema.columns by cases table <;> rfl] at htyped
  have houtcome := evaluate_outcome (hdb.rowFits hsource hrow).context htyped
  rw [hvalue] at houtcome
  rcases houtcome with htype | ⟨hnull, -⟩
  · exact htype.symm
  · exact nomatch hnull

/-- **WHERE AGREES WITH SELECT**: over a table that has rows, a WHERE clause
    answers exactly when SELECT shows TRUE or FALSE at each of them, and keeps
    those at which it shows TRUE. -/
theorem where_flags (texts : List Bytes) {sql sqlFlags sqlWhere : Bytes}
    {projections : List SelectProjection} {tableName aliasName : Bytes} {p : Expression}
    (hparse : parseSql sql = .ok (.select projections tableName none))
    (hparseFlags : parseSql sqlFlags = .ok (.select [⟨p, aliasName⟩] tableName none))
    (hparseWhere : parseSql sqlWhere = .ok (.select projections tableName (some p)))
    (hstar : p ≠ .star) {all flags : QueryResult}
    (hall : (execute (engineAfter texts) sql).1 = .ok all)
    (hflags : (execute (engineAfter texts) sqlFlags).1 = .ok flags) (hne : flags.rows ≠ [])
    (r : QueryResult) :
    (execute (engineAfter texts) sqlWhere).1 = .ok r
      ↔ (∀ flag ∈ flags.rows, ∃ keeps, flag = [.boolean keeps])
        ∧ r = ⟨all.columns, ((all.rows.zip flags.rows).filter
            (·.2 = [.boolean true])).map (·.1)⟩ := by
  have hdb := engineAfter_consistent texts
  obtain ⟨table, bounds, -, hfrom, hbounds, ⟨⟩, ⟨-, heval, rfl⟩⟩ :=
    (execute_select_iff hdb hparse).mp hall
  obtain ⟨table', bounds', -, hfrom', hbounds', ⟨⟩, ⟨-, heval', rfl⟩⟩ :=
    (execute_select_iff hdb hparseFlags).mp hflags
  cases hfrom.symm.trans hfrom'
  obtain ⟨b, hb, rfl⟩ : ∃ b, bindExpression table p = .ok b ∧ bounds' = [(b, aliasName)] := by
    obtain ⟨first, hfirst, h⟩ := bind_ok_iff.mp hbounds'
    cases h
    unfold bindProjection at hfirst
    rw [if_neg hstar] at hfirst
    obtain ⟨b, hb, hfirst⟩ := bind_ok_iff.mp hfirst
    cases hfirst
    exact ⟨b, hb, rfl⟩
  -- at every row the expression has a value, and SELECT shows it
  have hshown : ∀ row ∈ (engineAfter texts).sourceRows (table.getD {}), ∀ keeps,
      [b].map (valueAt (table.getD {}).schema row) = [.boolean keeps]
        ↔ evaluate ⟨some (table.getD {}).schema, some row⟩ b = .ok (.boolean keeps) := by
    intro row hrow keeps
    obtain ⟨v, hv⟩ := heval' row hrow rfl b List.mem_cons_self
    simp only [List.map_cons, List.map_nil, valueAt, hv, okValue, Option.getD_some,
      List.cons.injEq, and_true, Except.ok.injEq]
  have hevery : ∀ rows : List (List Value),
      rows.filter (fun _ => (some true : Option Bool) = some true) = rows :=
    fun rows => List.filter_eq_self.mpr fun row _ => rfl
  rw [hevery] at hne
  dsimp only
  rw [hevery]
  generalize hrows : (engineAfter texts).sourceRows (table.getD {}) = rows at *
  have hkept : (((rows.map fun row => (bounds.map (·.1)).map (valueAt (table.getD {}).schema row)).zip
        (rows.map fun row => [b].map (valueAt (table.getD {}).schema row))).filter
          (·.2 = [.boolean true])).map (·.1)
      = (rows.filter (decision (table.getD {}).schema · b = some true)).map fun row =>
        (bounds.map (·.1)).map (valueAt (table.getD {}).schema row) := by
    rw [List.zip_map', List.filter_map, List.map_map]
    congr 1
    refine List.filter_congr fun row hrow => ?_
    rw [Function.comp_apply, decide_eq_decide, hshown row hrow, decision_some_iff]
  have hcond : whereCondition table (some p) = if b.type = .boolean then
      some fun schema row => decision schema row b else none := by
    rw [whereCondition, condition, hb]
  rw [execute_select_iff hdb hparseWhere]
  constructor
  · rintro ⟨table', bounds', d, hfrom', hbounds', hd, ⟨hdecided, -, rfl⟩⟩
    cases hfrom.symm.trans hfrom'
    cases hbounds.symm.trans hbounds'
    rw [hcond] at hd
    split at hd
    · cases hd
      rw [hrows] at hdecided ⊢
      refine ⟨?_, congrArg (QueryResult.mk _) hkept.symm⟩
      rintro _ hflag
      obtain ⟨row, hrow, rfl⟩ := List.mem_map.mp hflag
      obtain ⟨keeps, hkeeps⟩ := hdecided row hrow
      exact ⟨keeps, (hshown row hrow keeps).mpr (decision_some_iff.mp hkeeps)⟩
    · cases hd
  · rintro ⟨hboolean, rfl⟩
    have hvalue : ∀ row ∈ rows, ∃ keeps,
        evaluate ⟨some (table.getD {}).schema, some row⟩ b = .ok (.boolean keeps) := by
      intro row hrow
      obtain ⟨keeps, hkeeps⟩ := hboolean _ (List.mem_map_of_mem hrow)
      exact ⟨keeps, (hshown row hrow keeps).mp hkeeps⟩
    obtain ⟨first, hfirst⟩ := List.exists_mem_of_ne_nil rows fun hnil => hne (by rw [hnil]; rfl)
    obtain ⟨keeps, hkeeps⟩ := hvalue first hfirst
    have htype := boolean_of_value hdb hfrom hb (hrows ▸ hfirst) hkeeps
    rw [if_pos htype] at hcond
    refine ⟨table, bounds, _, hfrom, hbounds, hcond, ?_⟩
    rw [hrows]
    refine ⟨fun row hrow => ?_, fun row hrow _ => heval row hrow rfl,
      congrArg (QueryResult.mk _) hkept⟩
    obtain ⟨keeps, hkeeps⟩ := hvalue row hrow
    exact ⟨keeps, decision_some_iff.mpr hkeeps⟩

/-- The row at which `SELECT x < 2` shows TRUE. -/
theorem where_flags_ordering :
    let texts := [ascii "CREATE TABLE t (x INT)", ascii "INSERT INTO t VALUES (5)",
      ascii "INSERT INTO t VALUES (1)"]
    (execute (engineAfter texts) (ascii "SELECT x FROM t WHERE x < 2")).1
      = .ok ⟨[ascii "x"], [[.integer 1]]⟩ := by
  intro texts
  let x : Expression := .columnRef (ascii "x")
  let p : Expression := .binary x .less (.integerLiteral 2)
  obtain ⟨⟨hparse, hparseFlags, hparseWhere⟩, hall, hflags⟩ :
      (parseSql (ascii "SELECT x FROM t") = .ok (.select [⟨x, []⟩] (ascii "t") none)
      ∧ parseSql (ascii "SELECT x < 2 AS b FROM t") = .ok (.select [⟨p, ascii "b"⟩] (ascii "t") none)
      ∧ parseSql (ascii "SELECT x FROM t WHERE x < 2")
        = .ok (.select [⟨x, []⟩] (ascii "t") (some p)))
      ∧ (execute (engineAfter texts) (ascii "SELECT x FROM t")).1
        = .ok ⟨[ascii "x"], [[.integer 5], [.integer 1]]⟩
      ∧ (execute (engineAfter texts) (ascii "SELECT x < 2 AS b FROM t")).1
        = .ok ⟨[ascii "b"], [[.boolean false], [.boolean true]]⟩ := by
    decide +kernel
  refine (where_flags texts hparse hparseFlags hparseWhere (by decide) hall hflags (by decide)
    _).mpr ⟨?_, by decide⟩
  intro flag hflag
  rcases List.mem_cons.mp hflag with rfl | hflag
  · exact ⟨false, rfl⟩
  · exact ⟨true, List.mem_singleton.mp hflag⟩

/-! ## SELECT lists -/

theorem bindProjections_append {projections more : List SelectProjection}
    {bounds : List (BoundExpression × Bytes)} :
    bindProjections table (projections ++ more) = .ok bounds
      ↔ ∃ front back, bindProjections table projections = .ok front
        ∧ bindProjections table more = .ok back ∧ bounds = front ++ back := by
  induction projections generalizing bounds with
  | nil =>
      constructor
      · intro h
        exact ⟨[], bounds, rfl, h, rfl⟩
      · rintro ⟨front, back, hfront, hback, rfl⟩
        cases hfront
        exact hback
  | cons projection rest ih =>
      rw [List.cons_append, bindProjections, bindProjections]
      constructor
      · intro h
        obtain ⟨bound, hbound, h⟩ := bind_ok_iff.mp h
        obtain ⟨bounds', hrest, h⟩ := bind_ok_iff.mp h
        cases h
        obtain ⟨front, back, hfront, hback, rfl⟩ := ih.mp hrest
        rw [hbound, hfront]
        exact ⟨bound ++ front, back, rfl, hback, (List.append_assoc ..).symm⟩
      · rintro ⟨front, back, hfront, hback, rfl⟩
        obtain ⟨bound, hbound, hfront⟩ := bind_ok_iff.mp hfront
        obtain ⟨bounds', hrest, hfront⟩ := bind_ok_iff.mp hfront
        cases hfront
        rw [hbound, ok_bind, ih.mpr ⟨bounds', back, hrest, hback, rfl⟩, List.append_assoc]
        rfl

theorem projectionsEvaluate_append {es fs : List BoundExpression} :
    ProjectionsEvaluate (es ++ fs) schema row
      ↔ ProjectionsEvaluate es schema row ∧ ProjectionsEvaluate fs schema row :=
  List.forall_mem_append

/-- **SELECT LISTS**: a SELECT of two lists answers exactly when the SELECTs of
    both do, and then every row is the row of the first followed by that of the
    second.  The first list keeps its column names; the second may get other
    numbers for its unnamed columns. -/
theorem select_lists_append (texts : List Bytes) {sql sqlFront sqlBack : Bytes}
    {projections more : List SelectProjection} {tableName : Bytes} {predicate : Option Expression}
    (hparse : parseSql sql = .ok (.select (projections ++ more) tableName predicate))
    (hparseFront : parseSql sqlFront = .ok (.select projections tableName predicate))
    (hparseBack : parseSql sqlBack = .ok (.select more tableName predicate)) :
    (∀ r r', (execute (engineAfter texts) sqlFront).1 = .ok r →
      (execute (engineAfter texts) sqlBack).1 = .ok r' →
      ∃ columns, (execute (engineAfter texts) sql).1
          = .ok ⟨columns, List.zipWith (· ++ ·) r.rows r'.rows⟩
        ∧ r.columns <+: columns ∧ columns.length = r.columns.length + r'.columns.length)
    ∧ ((∃ r, (execute (engineAfter texts) sql).1 = .ok r) →
      (∃ r, (execute (engineAfter texts) sqlFront).1 = .ok r)
        ∧ ∃ r', (execute (engineAfter texts) sqlBack).1 = .ok r') := by
  have hdb := engineAfter_consistent texts
  constructor
  · intro r r' hr hr'
    obtain ⟨table, front, d, hfrom, hfront, hd, ⟨hdecided, heval, rfl⟩⟩ :=
      (execute_select_iff hdb hparseFront).mp hr
    obtain ⟨table', back, d', hfrom', hback, hd', ⟨-, heval', rfl⟩⟩ :=
      (execute_select_iff hdb hparseBack).mp hr'
    cases hfrom.symm.trans hfrom'
    cases hd.symm.trans hd'
    refine ⟨namesFrom 0 (front ++ back), (execute_select_iff hdb hparse).mpr
      ⟨table, front ++ back, d, hfrom,
        bindProjections_append.mpr ⟨front, back, hfront, hback, rfl⟩, hd, hdecided, ?_, ?_⟩, ?_, ?_⟩
    · intro row hrow hkeeps
      rw [List.map_append]
      exact projectionsEvaluate_append.mpr ⟨heval row hrow hkeeps, heval' row hrow hkeeps⟩
    · congr 1
      · exact (outputNames_eq (front ++ back)).symm
      · rw [List.zipWith_map, List.zipWith_self]
        simp only [List.map_append]
    · dsimp only
      rw [outputNames_eq, namesFrom_append]
      exact List.prefix_append _ _
    · dsimp only
      rw [outputNames_eq, outputNames_eq, namesFrom_length, namesFrom_length, namesFrom_length,
        List.length_append]
  · rintro ⟨r, hr⟩
    obtain ⟨table, bounds, d, hfrom, hbounds, hd, ⟨hdecided, heval, -⟩⟩ :=
      (execute_select_iff hdb hparse).mp hr
    obtain ⟨front, back, hfront, hback, rfl⟩ := bindProjections_append.mp hbounds
    have hparts := fun row hrow hkeeps =>
      projectionsEvaluate_append.mp (List.map_append ▸ heval row hrow hkeeps)
    exact ⟨⟨_, (execute_select_iff hdb hparseFront).mpr ⟨table, front, d, hfrom, hfront, hd,
        ⟨hdecided, fun row hrow hkeeps => (hparts row hrow hkeeps).1, rfl⟩⟩⟩,
      ⟨_, (execute_select_iff hdb hparseBack).mpr ⟨table, back, d, hfrom, hback, hd,
        ⟨hdecided, fun row hrow hkeeps => (hparts row hrow hkeeps).2, rfl⟩⟩⟩⟩

/-- Two columns put together; the second had the first number on its own. -/
theorem select_lists_append_unnamed :
    let sql := ascii "SELECT 1 AS a, 2 + 3"
    ∃ columns, (execute (engineAfter []) sql).1
        = .ok ⟨columns, [[.integer 1, .integer 5]]⟩ ∧ [ascii "a"] <+: columns := by
  intro sql
  let one : SelectProjection := ⟨.integerLiteral 1, ascii "a"⟩
  let sum : SelectProjection := ⟨.binary (.integerLiteral 2) .add (.integerLiteral 3), []⟩
  have hparse : parseSql sql = .ok (.select ([one] ++ [sum]) [] none) := by decide
  have hfront : parseSql (ascii "SELECT 1 AS a") = .ok (.select [one] [] none) := by decide
  have hback : parseSql (ascii "SELECT 2 + 3") = .ok (.select [sum] [] none) := by decide
  obtain ⟨columns, hr, hprefix, -⟩ :=
    (select_lists_append [] hparse hfront hback).1 ⟨[ascii "a"], [[.integer 1]]⟩
      ⟨_, [[.integer 5]]⟩ (by decide) (by rfl)
  exact ⟨columns, hr, hprefix⟩

end MattSql
