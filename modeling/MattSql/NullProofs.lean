import MattSql.EngineProofs

/-! # NULL in WHERE clauses

    A WHERE clause without arithmetic has a two-valued reading: a comparison
    with a NULL operand is not satisfied, and neither is a NULL condition.

    The engine keeps to it where `=` and `<>` meet a NULL, and stops with an
    error where an ordering comparison, NOT, AND, OR or the filter itself does.
    `nullHazard` says at which rows it stops, with AND and OR looking at their
    right operand only when the left one does not decide, and
    `where_null_semantics` that the filter stops at no other row and keeps
    exactly the rows of the two-valued reading.  The projections of the rows it
    keeps may read a NULL of their own. -/

namespace MattSql

open Fallible

/-- Columns, literals, comparisons, AND, OR and NOT only. -/
def Expression.ArithmeticFree : Expression → Prop
  | .unary op operand => op = .not ∧ operand.ArithmeticFree
  | .binary left op right =>
    isArithmetic op = false ∧ left.ArithmeticFree ∧ right.ArithmeticFree
  | _ => True

def BoundExpression.ArithmeticFree : BoundExpression → Prop
  | .unary _ op operand => op = .not ∧ operand.ArithmeticFree
  | .binary _ left op right =>
    isArithmetic op = false ∧ left.ArithmeticFree ∧ right.ArithmeticFree
  | _ => True

/-- The value is TRUE. -/
def isTrue (value : Value) : Bool := value = .boolean true

/-- The two-valued reading of a comparison. -/
def comparisonHolds (op : BinaryOperator) (left right : Value) : Bool :=
  if isNull left ∨ isNull right then false
  else
    match okValue (compareValues left right), op with
    | some c, .equal => c = 0
    | some c, .notEqual => c ≠ 0
    | some c, .less => c < 0
    | some c, .lessEqual => c ≤ 0
    | some c, .greater => c > 0
    | some c, .greaterEqual => c ≥ 0
    | _, _ => false

/-- The two-valued reading of a clause at a row. -/
def BoundExpression.twoValued (row : List Value) : BoundExpression → Value
  | .literal _ value => value
  | .column _ _ columnId _ _ => row[columnId]?.getD .null
  | .unary _ _ operand => .boolean (!isTrue (operand.twoValued row))
  | .binary _ left .and right =>
    .boolean (isTrue (left.twoValued row) && isTrue (right.twoValued row))
  | .binary _ left .or right =>
    .boolean (isTrue (left.twoValued row) || isTrue (right.twoValued row))
  | .binary _ left op right =>
    .boolean (comparisonHolds op (left.twoValued row) (right.twoValued row))
  | .star _ => .null

/-- The evaluation of the clause at the row meets an operator that does not take
    the NULL it is given. -/
def BoundExpression.nullHazard (row : List Value) : BoundExpression → Bool
  | .unary _ _ operand => operand.nullHazard row || isNull (operand.twoValued row)
  | .binary _ left .and right =>
    left.nullHazard row || isNull (left.twoValued row)
      || isTrue (left.twoValued row)
        && (right.nullHazard row || isNull (right.twoValued row))
  | .binary _ left .or right =>
    left.nullHazard row || isNull (left.twoValued row)
      || !isTrue (left.twoValued row)
        && (right.nullHazard row || isNull (right.twoValued row))
  | .binary _ left op right =>
    left.nullHazard row || right.nullHazard row
      || isOrderingComparison op
        && (isNull (left.twoValued row) || isNull (right.twoValued row))
  | _ => false

/-- The clause as a condition: a NULL is not taken either. -/
def BoundExpression.conditionHazard (row : List Value) (e : BoundExpression) : Bool :=
  e.nullHazard row || isNull (e.twoValued row)

/-! ## Evaluation is the two-valued reading up to hazards -/

/-- The evaluation ends in the given value, or a hazard makes it fail. -/
def Reads (hazard : Bool) (value : Value) (r : Result Value) : Prop :=
  if hazard then ∃ st, r = .error st ∧ NullFailure st else r = .ok value

theorem Reads.ok {value : Value} {r : Result Value} (h : r = .ok value) :
    Reads false value r := h

theorem Reads.eq_ok {value : Value} {r : Result Value} (h : Reads false value r) :
    r = .ok value := h

theorem Reads.error {value : Value} {r : Result Value} {st : Status} (h : r = .error st)
    (hst : NullFailure st) : Reads true value r := ⟨st, h, hst⟩

/-- A failing operand makes the operator fail. -/
theorem Reads.bind_error {value v' : Value} {r : Result Value} {f : Value → Result Value}
    (h : Reads true value r) : Reads true v' (r >>= f) := by
  obtain ⟨st, rfl, hst⟩ := h
  exact ⟨st, rfl, hst⟩

/-- A value of the given type, or NULL. -/
def TypedOrNull (type : SqlType) (v : Value) : Prop := valueTypeOf v = type ∨ v = .null

/-- The check for a BOOLEAN on a value that is one or NULL. -/
theorem Reads.requireBoolean {v : Value} (ht : TypedOrNull .boolean v) (context : Bytes)
    (hazard : Bool) (value : Value) (f : Bool → Result Value)
    (hf : Reads hazard value (f (isTrue v))) :
    Reads (isNull v || hazard) value (requireBoolean v context >>= f) := by
  cases v with
  | null => exact .error rfl (Or.inr rfl)
  | boolean b =>
      have hb : isTrue (.boolean b) = b := by cases b <;> rfl
      rw [hb] at hf
      exact hf
  | integer i => rcases ht with ht | ht <;> exact nomatch ht
  | text s => rcases ht with ht | ht <;> exact nomatch ht

theorem Reads.not {hazard : Bool} {v : Value} {r : Result Value} (h : Reads hazard v r)
    (ht : TypedOrNull .boolean v) :
    Reads (hazard || isNull v) (.boolean (!isTrue v)) (r >>= evaluateUnary .not) := by
  cases hazard with
  | true => exact h.bind_error
  | false =>
      rw [show r = .ok v from h, ok_bind, Bool.false_or, ← Bool.or_false (isNull v)]
      exact Reads.requireBoolean ht _ false _ _ (.ok rfl)

/-- AND and OR: the decisive value on the left ends the evaluation. -/
theorem Reads.logical {hazardL hazardR : Bool} {l r : Value} {left right : Result Value}
    (hl : Reads hazardL l left) (hr : Reads hazardR r right) (htl : TypedOrNull .boolean l)
    (htr : TypedOrNull .boolean r) (label : Bytes) (decisive : Bool) :
    Reads (hazardL || isNull l || (isTrue l != decisive) && (hazardR || isNull r))
      (.boolean (if isTrue l = decisive then decisive else isTrue r))
      (evaluateLogical label decisive left right) := by
  cases hazardL with
  | true => exact hl.bind_error
  | false =>
      rw [evaluateLogical]
      rw [show left = .ok l from hl, ok_bind, Bool.false_or]
      refine Reads.requireBoolean htl _ _ _ _ ?_
      by_cases hd : isTrue l = decisive
      · rw [if_pos hd, if_pos hd, hd, bne_self_eq_false, Bool.false_and]
        exact .ok rfl
      · rw [if_neg hd, if_neg hd, show (isTrue l != decisive) = true from bne_iff_ne.mpr hd,
          Bool.true_and]
        cases hazardR with
        | true => exact hr.bind_error
        | false =>
            rw [show right = .ok r from hr, ok_bind, Bool.false_or, ← Bool.or_false (isNull r)]
            exact Reads.requireBoolean htr _ false _ _ (.ok rfl)

/-- What an operator does to two operands that are evaluated first. -/
theorem Reads.operands {hazardL hazardR hazard : Bool} {l r value : Value}
    {left right : Result Value} {op : BinaryOperator} (hl : Reads hazardL l left)
    (hr : Reads hazardR r right) (h : Reads hazard value (evaluateOperands op l r)) :
    Reads (hazardL || hazardR || hazard) value
      (left >>= fun l => right >>= fun r => evaluateOperands op l r) := by
  cases hazardL with
  | true => exact hl.bind_error
  | false =>
      rw [show left = .ok l from hl, ok_bind, Bool.false_or]
      cases hazardR with
      | true => exact hr.bind_error
      | false =>
          rw [show right = .ok r from hr, ok_bind, Bool.false_or]
          exact h

/-- Equality takes NULLs: it is not satisfied. -/
theorem Reads.equality {l r : Value} {op : BinaryOperator} (hop : isEqualityComparison op)
    (hcmp : isNull l = false → isNull r = false → ∃ c, compareValues l r = .ok c) :
    Reads false (.boolean (comparisonHolds op l r)) (evaluateOperands op l r) := by
  by_cases hnull : isNull l ∨ isNull r
  · have hfalse : comparisonHolds op l r = false := if_pos hnull
    rw [hfalse]
    cases op with
    | equal | notEqual => exact .ok (if_pos hnull)
    | _ => exact nomatch hop
  · have hne := not_or.mp hnull
    obtain ⟨c, hc⟩ := hcmp (Bool.eq_false_iff.mpr hne.1) (Bool.eq_false_iff.mpr hne.2)
    unfold comparisonHolds
    rw [if_neg hnull, hc]
    cases op with
    | equal | notEqual =>
        refine .ok ?_
        unfold evaluateOperands
        dsimp only
        rw [if_neg hnull, hc]
        rfl
    | _ => exact nomatch hop

/-- An ordering comparison does not take NULLs. -/
theorem Reads.ordering {l r : Value} {op : BinaryOperator} (hop : isOrderingComparison op)
    (hcmp : isNull l = false → isNull r = false → ∃ c, compareValues l r = .ok c) :
    Reads (isNull l || isNull r) (.boolean (comparisonHolds op l r))
      (evaluateOperands op l r) := by
  by_cases hnull : isNull l ∨ isNull r
  · have hfail := compareValues_null hnull
    rw [show (isNull l || isNull r) = true from (Bool.or_eq_true _ _).mpr hnull]
    cases op with
    | less | lessEqual | greater | greaterEqual =>
        refine .error ?_ (Or.inl rfl)
        unfold evaluateOperands
        dsimp only
        rw [hfail]
        rfl
    | _ => exact nomatch hop
  · have hne := not_or.mp hnull
    obtain ⟨c, hc⟩ := hcmp (Bool.eq_false_iff.mpr hne.1) (Bool.eq_false_iff.mpr hne.2)
    rw [show (isNull l || isNull r) = false from
      Bool.eq_false_iff.mpr fun h => hnull ((Bool.or_eq_true _ _).mp h)]
    unfold comparisonHolds
    rw [if_neg hnull, hc]
    cases op with
    | less | lessEqual | greater | greaterEqual =>
        refine .ok ?_
        unfold evaluateOperands
        dsimp only
        rw [hc]
        rfl
    | _ => exact nomatch hop

section

variable {schema : TableSchema} {row : List Value}

/-- The value of a column in scope. -/
private theorem column_value (hrow : RowFits schema row) {id : Nat} {c : ColumnSchema}
    (hid : schema.columns[id]? = some c) :
    ∃ v, row[id]? = some v ∧ evaluateColumn ⟨some schema, some row⟩ id = .ok v
      ∧ TypedOrNull c.type v := by
  obtain ⟨v, hev, hv, ht⟩ := evaluateColumn_ok hrow.context hid
  exact ⟨v, hv, hev, ht.symm⟩

theorem BoundExpression.twoValued_typed (hrow : RowFits schema row) {e : BoundExpression}
    (hw : e.WellTyped schema.columns) (ha : e.ArithmeticFree) :
    TypedOrNull e.type (e.twoValued row) := by
  cases e with
  | literal type value => exact Or.inl hw
  | column type tableId columnId tableName columnName =>
      obtain ⟨c, hid, rfl⟩ := hw
      obtain ⟨v, hv, -, ht⟩ := column_value hrow hid
      rw [twoValued, hv]
      exact ht
  | unary type op operand =>
      obtain ⟨-, hty⟩ := hw
      obtain ⟨rfl, -⟩ := ha
      exact Or.inl hty.2.symm
  | binary type left op right =>
      obtain ⟨-, -, hty⟩ := hw
      obtain ⟨hop, -, -⟩ := ha
      cases op with
      | and | or => exact Or.inl hty.2.2.symm
      | equal | notEqual | less | lessEqual | greater | greaterEqual => exact Or.inl hty.2.symm
      | _ => exact nomatch hop
  | star type => exact absurd hw id

/-- Operands the binder accepts for an equality compare when neither is NULL. -/
private theorem equality_compares {left right : BoundExpression} {l r : Value}
    (h : equalityComparable left right) (hl : TypedOrNull left.type l)
    (hr : TypedOrNull right.type r) (hln : isNull l = false) (hrn : isNull r = false) :
    ∃ c, compareValues l r = .ok c := by
  have hl := hl.resolve_right fun h => by rw [h] at hln; exact nomatch hln
  have hr := hr.resolve_right fun h => by rw [h] at hrn; exact nomatch hrn
  refine compareValues_ok hln hrn ?_
  rcases equalityComparable_types h with ht | ht | ht
  · rw [(valueTypeOf_null_iff l).mp (hl.trans ht)] at hln
    exact nomatch hln
  · rw [(valueTypeOf_null_iff r).mp (hr.trans ht)] at hrn
    exact nomatch hrn
  · rw [hl, hr]
    exact ht

private theorem ordering_compares {left right : SqlType} {l r : Value}
    (h : orderingComparable left right) (hl : TypedOrNull left l) (hr : TypedOrNull right r)
    (hln : isNull l = false) (hrn : isNull r = false) : ∃ c, compareValues l r = .ok c := by
  have hl := hl.resolve_right fun h => by rw [h] at hln; exact nomatch hln
  have hr := hr.resolve_right fun h => by rw [h] at hrn; exact nomatch hrn
  refine compareValues_ok hln hrn (Or.inl ?_)
  rw [hl, hr]
  exact (orderingComparable_types h).1

/-- **EVALUATION IS THE TWO-VALUED READING UP TO HAZARDS.** -/
theorem evaluate_reads (hrow : RowFits schema row) {e : BoundExpression}
    (hw : e.WellTyped schema.columns) (ha : e.ArithmeticFree) :
    Reads (e.nullHazard row) (e.twoValued row) (evaluate ⟨some schema, some row⟩ e) := by
  induction e with
  | literal type value => exact .ok rfl
  | column type tableId columnId tableName columnName =>
      obtain ⟨c, hid, rfl⟩ := hw
      obtain ⟨v, hv, hev, -⟩ := column_value hrow hid
      refine .ok ?_
      rw [evaluate, hev, BoundExpression.twoValued, hv]
      rfl
  | unary type op operand ih =>
      obtain ⟨hwo, hty⟩ := hw
      obtain ⟨rfl, hao⟩ := ha
      have ht := BoundExpression.twoValued_typed hrow hwo hao
      rw [hty.1] at ht
      exact (ih hwo hao).not ht
  | binary type left op right ihl ihr =>
      obtain ⟨hwl, hwr, hty⟩ := hw
      obtain ⟨hop, hal, har⟩ := ha
      -- both sides read as their two-valued values; the operator decides on the hazards
      have hl := ihl hwl hal
      have hr := ihr hwr har
      have htl := BoundExpression.twoValued_typed hrow hwl hal
      have htr := BoundExpression.twoValued_typed hrow hwr har
      cases op with
      | and =>
          rw [hty.1] at htl
          rw [hty.2.1] at htr
          have h := Reads.logical hl hr htl htr (ascii "AND") false
          rw [show ∀ b : Bool, (b != false) = b by decide,
            show ∀ a b : Bool, (if a = false then false else b) = (a && b) by decide] at h
          exact h
      | or =>
          rw [hty.1] at htl
          rw [hty.2.1] at htr
          have h := Reads.logical hl hr htl htr (ascii "OR") true
          rw [show ∀ b : Bool, (b != true) = !b by decide,
            show ∀ a b : Bool, (if a = true then true else b) = (a || b) by decide] at h
          exact h
      | equal | notEqual =>
          exact Reads.operands hl hr
            (Reads.equality (by rfl) (equality_compares hty.1 htl htr))
      | less | lessEqual | greater | greaterEqual =>
          exact Reads.operands hl hr
            (Reads.ordering (by rfl) (ordering_compares hty.1 htl htr))
      | _ => cases hop
  | star type => exact absurd hw id

/-! ## Hazards come from stored NULLs -/

/-- Only a column of the row can be NULL where a NULL literal is ruled out. -/
theorem BoundExpression.null_mem_of_twoValued {e : BoundExpression}
    (hw : e.WellTyped schema.columns) (hrow : RowFits schema row)
    (htype : e.type ≠ .null) (h : isNull (e.twoValued row) = true) : Value.null ∈ row := by
  have hnull := (isNull_iff _).mp h
  cases e with
  | literal type value =>
      rw [twoValued] at hnull
      subst hnull
      exact absurd hw.symm htype
  | column type tableId columnId tableName columnName =>
      obtain ⟨c, hid, -⟩ := hw
      obtain ⟨v, hv, -, -⟩ := column_value hrow hid
      rw [twoValued, hv] at hnull
      cases hnull
      exact List.mem_of_getElem? hv
  | unary type op operand => exact nomatch hnull
  | binary type left op right => cases op <;> exact nomatch hnull
  | star type => exact absurd hw id

/-- A row without NULLs is no hazard. -/
theorem BoundExpression.null_mem_of_nullHazard {e : BoundExpression}
    (hw : e.WellTyped schema.columns) (ha : e.ArithmeticFree) (hrow : RowFits schema row)
    (h : e.nullHazard row = true) : Value.null ∈ row := by
  induction e with
  | literal type value => exact nomatch h
  | column type tableId columnId tableName columnName => exact nomatch h
  | unary type op operand ih =>
      obtain ⟨hwo, hty⟩ := hw
      obtain ⟨rfl, hao⟩ := ha
      rcases (Bool.or_eq_true _ _).mp h with h | h
      · exact ih hwo hao h
      · exact null_mem_of_twoValued hwo hrow (by rw [hty.1]; decide) h
  | binary type left op right ihl ihr =>
      obtain ⟨hwl, hwr, hty⟩ := hw
      obtain ⟨hop, hal, har⟩ := ha
      have hl := ihl hwl hal
      have hr := ihr hwr har
      -- an operand that reads as NULL is a column that holds one
      have hnl := null_mem_of_twoValued hwl hrow
      have hnr := null_mem_of_twoValued hwr hrow
      cases op with
      | and | or =>
          simp only [nullHazard, Bool.or_eq_true, Bool.and_eq_true] at h
          rcases h with (h | h) | ⟨-, h | h⟩
          · exact hl h
          · exact hnl (by rw [hty.1]; decide) h
          · exact hr h
          · exact hnr (by rw [hty.2.1]; decide) h
      | equal | notEqual =>
          simp only [nullHazard, isOrderingComparison, Bool.false_and, Bool.or_false,
            Bool.or_eq_true] at h
          exact h.elim hl hr
      | less | lessEqual | greater | greaterEqual =>
          obtain ⟨htypes, hne⟩ := orderingComparable_types hty.1
          simp only [nullHazard, isOrderingComparison, Bool.true_and, Bool.or_eq_true] at h
          rcases h with (h | h) | (h | h)
          · exact hl h
          · exact hr h
          · exact hnl hne h
          · exact hnr (htypes ▸ hne) h
      | _ => exact nomatch hop
  | star type => exact nomatch h

/-! ## The filter -/

/-- The predicate as the filter reads it at one row. -/
theorem condition_reads (hrow : RowFits schema row) {p : BoundExpression}
    (hw : p.WellTyped schema.columns) (ha : p.ArithmeticFree) (htype : p.type = .boolean) :
    Reads (p.conditionHazard row) (.boolean (isTrue (p.twoValued row)))
      (evaluate ⟨some schema, some row⟩ p >>= fun value =>
        requireBoolean value (ascii "filter") >>= fun b => .ok (.boolean b)) := by
  have h := evaluate_reads hrow hw ha
  have ht := BoundExpression.twoValued_typed hrow hw ha
  rw [htype] at ht
  rw [BoundExpression.conditionHazard]
  cases hz : p.nullHazard row with
  | true =>
      rw [hz] at h
      exact h.bind_error
  | false =>
      rw [hz] at h
      rw [show evaluate _ p = _ from h, ok_bind, Bool.false_or,
        ← Bool.or_false (isNull (p.twoValued row))]
      exact Reads.requireBoolean ht _ false _ _ (.ok rfl)

/-- Without a hazard the filter keeps the rows of the two-valued reading. -/
theorem filterRows_twoValued {rows : List (List Value)}
    (hrows : ∀ row ∈ rows, RowFits schema row) {p : BoundExpression}
    (hw : p.WellTyped schema.columns) (ha : p.ArithmeticFree) (htype : p.type = .boolean)
    (hsafe : ∀ row ∈ rows, p.conditionHazard row = false) :
    filterRows p schema rows = .ok (rows.filter fun row => isTrue (p.twoValued row)) := by
  have hev : ∀ row ∈ rows, evaluate ⟨some schema, some row⟩ p
      = .ok (.boolean (isTrue (p.twoValued row))) := by
    intro row hrow
    have h := condition_reads (hrows row hrow) hw ha htype
    rw [hsafe row hrow] at h
    obtain ⟨v, hv, h⟩ := bind_ok_iff.mp h.eq_ok
    obtain ⟨b, hb, h⟩ := bind_ok_iff.mp h
    cases v with
    | boolean c =>
        cases hb
        cases h
        exact hv
    | _ => exact nomatch hb
  refine filterRows_ok_iff.mpr ⟨fun row hrow => ⟨_, hev row hrow⟩, ?_⟩
  apply List.filter_congr
  intro row hrow
  have hsat : Satisfies p schema row ↔ isTrue (p.twoValued row) = true := by
    rw [Satisfies]
    rw [hev row hrow, Except.ok.injEq, Value.boolean.injEq]
  rw [Bool.eq_iff_iff, decide_eq_true_iff, hsat]

/-- With a hazard it fails, and NULL is the reason. -/
theorem filterRows_hazard {rows : List (List Value)}
    (hrows : ∀ row ∈ rows, RowFits schema row) {p : BoundExpression}
    (hw : p.WellTyped schema.columns) (ha : p.ArithmeticFree) (htype : p.type = .boolean)
    (hhazard : ∃ row ∈ rows, p.conditionHazard row = true) :
    ∃ st, filterRows p schema rows = .error st ∧ NullFailure st := by
  have hreads := fun row hrow => condition_reads (hrows row hrow) hw ha htype
  cases hf : filterRows p schema rows with
  | ok kept =>
      exfalso
      obtain ⟨row, hrow, hz⟩ := hhazard
      obtain ⟨hdecides, -⟩ := filterRows_ok_iff.mp hf
      obtain ⟨b, hb⟩ := hdecides row hrow
      have h := hreads row hrow
      rw [hz, hb] at h
      obtain ⟨st, hst, -⟩ := h
      exact nomatch hst
  | error st =>
      refine ⟨st, rfl, ?_⟩
      obtain ⟨row, hrow, hst⟩ := filterRows_error hf
      have h := hreads row hrow
      have herr : (evaluate ⟨some schema, some row⟩ p >>= fun value =>
          requireBoolean value (ascii "filter") >>= fun b => .ok (Value.boolean b))
            = .error st := by
        rcases bind_error_iff.mp hst with hst | ⟨v, hv, hst⟩
        · exact bind_error_iff.mpr (Or.inl hst)
        · exact bind_error_iff.mpr (Or.inr ⟨v, hv, bind_error_iff.mpr (Or.inl hst)⟩)
      rw [herr] at h
      rw [Reads] at h
      split at h
      · obtain ⟨st', heq, hnull⟩ := h
        cases heq
        exact hnull
      · exact nomatch h

end

theorem bindExpression_arithmeticFree {scope : Option TableInfo} {e : Expression}
    (he : e.ArithmeticFree) {b : BoundExpression} (h : bindExpression scope e = .ok b) :
    b.ArithmeticFree := by
  induction e generalizing b with
  | columnRef name =>
      cases scope with
      | none => exact nomatch h
      | some table =>
          obtain ⟨c, -, h⟩ := bind_ok_iff.mp h
          cases h
          exact trivial
  | unary op operand ih =>
      obtain ⟨o, ho, h⟩ := bind_ok_iff.mp h
      obtain ⟨rfl, heo⟩ := he
      obtain ⟨-, h⟩ := guard_ok_iff.mp h
      cases h
      exact ⟨rfl, ih heo ho⟩
  | binary left op right ihl ihr =>
      obtain ⟨l, hl, h⟩ := bind_ok_iff.mp h
      obtain ⟨r, hr, h⟩ := bind_ok_iff.mp h
      obtain ⟨hop, hel, her⟩ := he
      have hb : ∃ type, b = .binary type l op r := by
        cases op <;>
          (obtain ⟨-, h⟩ := guard_ok_iff.mp h
           cases h
           exact ⟨_, rfl⟩)
      obtain ⟨type, rfl⟩ := hb
      exact ⟨hop, ihl hel hl, ihr her hr⟩
  | star => exact nomatch h
  | _ =>
      cases h
      exact trivial

/-- **NULL IN A WHERE CLAUSE**: in every reachable state, for every SELECT that
    binds and whose WHERE clause has no arithmetic, the filter fails exactly when
    some stored row is a hazard to the clause.  Then the SELECT fails with it,
    because of a NULL.  Otherwise the rows that satisfy the clause in the
    two-valued reading, each on its own, are kept and projected; what can still
    fail is a projection at one of them, by arithmetic or at a NULL that the
    projection reads.  A row without NULLs is never a hazard. -/
theorem where_null_semantics (texts : List Bytes) (sql : Bytes)
    (projections : List SelectProjection) (tableName : Bytes) (clause : Expression)
    (hparse : parseSql sql = .ok (.select projections tableName (some clause)))
    (hfree : clause.ArithmeticFree) (bound : BoundStatement)
    (hbind : bind (engineAfter texts).catalog.getTable
      (.select projections tableName (some clause)) = .ok bound) :
    ∃ ps names table p, bound = .select ps names table (some p)
      ∧ ((∃ row ∈ (engineAfter texts).sourceRows table, p.conditionHazard row = true) →
          ∃ st, filterRows p table.schema ((engineAfter texts).sourceRows table) = .error st
            ∧ (execute (engineAfter texts) sql).1 = .error st ∧ NullFailure st)
      ∧ ((∀ row ∈ (engineAfter texts).sourceRows table, p.conditionHazard row = false) →
          filterRows p table.schema ((engineAfter texts).sourceRows table)
              = .ok (((engineAfter texts).sourceRows table).filter fun row =>
                isTrue (p.twoValued row))
            ∧ (execute (engineAfter texts) sql).1 = (do
              let output ← projectRows ps table.schema
                (((engineAfter texts).sourceRows table).filter fun row =>
                  isTrue (p.twoValued row))
              .ok ⟨outputNames ps names, output⟩)
            ∧ ∀ st, (execute (engineAfter texts) sql).1 = .error st →
              ∃ row ∈ (engineAfter texts).sourceRows table, isTrue (p.twoValued row) = true
                ∧ ∃ e ∈ ps, evaluate ⟨some table.schema, some row⟩ e = .error st
                  ∧ (ArithmeticFailure st ∨ NullFailure st ∧ e.ReadsNull row))
      ∧ ∀ row ∈ (engineAfter texts).sourceRows table, Value.null ∉ row →
          p.conditionHazard row = false := by
  have hdb := engineAfter_consistent texts
  have hbound := hdb.boundIn hparse hbind
  have hrun := execute_eq_runBound hparse hbind
  -- the bound predicate is the binding of the clause, without arithmetic as the clause is
  obtain ⟨scope, -, h⟩ := bind_ok_iff.mp hbind
  obtain ⟨bounds, -, h⟩ := bind_ok_iff.mp h
  obtain ⟨predicate, hpredicate, h⟩ := bind_ok_iff.mp h
  obtain ⟨p, hp, hpredicate⟩ := bind_ok_iff.mp hpredicate
  obtain ⟨-, hpredicate⟩ := guard_ok_iff.mp hpredicate
  cases hpredicate
  cases h
  have ha := bindExpression_arithmeticFree hfree hp
  cases hbound with
  | select hb hfrom =>
      obtain ⟨hw, htype⟩ := hb.predicate_typed p rfl
      have hrows : ∀ row ∈ (engineAfter texts).sourceRows (scope.getD {}),
          RowFits (scope.getD {}).schema row := fun row hrow => hdb.rowFits hfrom hrow
      rw [hb.run hdb hfrom] at hrun
      refine ⟨_, _, _, p, rfl, ?_, ?_, ?_⟩
      · intro hhazard
        obtain ⟨st, hst, hnull⟩ := filterRows_hazard hrows hw ha htype hhazard
        refine ⟨st, hst, ?_, hnull⟩
        rw [hrun, selectReply, keptRows, hst]
        rfl
      · intro hsafe
        have hkept := filterRows_twoValued hrows hw ha htype hsafe
        have hreply : (execute (engineAfter texts) sql).1 = _ := congrArg Prod.fst hrun
        rw [selectReply, keptRows, hkept, ok_bind] at hreply
        refine ⟨hkept, hreply, fun st herror => ?_⟩
        -- after the filter only the projections can fail
        rw [hreply] at herror
        rcases bind_error_iff.mp herror with hproject | ⟨output, -, hnever⟩
        · obtain ⟨row, hrow, e, he, hst⟩ := projectRows_error hproject
          obtain ⟨hmem, htrue⟩ := List.mem_filter.mp hrow
          have houtcome :=
            evaluate_outcome (hrows row hmem).context (hb.projections_typed e he)
          rw [hst] at houtcome
          exact ⟨row, hmem, htrue, e, he, hst, houtcome⟩
        · cases hnever
      · intro row hrow hnull
        rw [BoundExpression.conditionHazard]
        rw [Bool.or_eq_false_iff, Bool.eq_false_iff, Bool.eq_false_iff]
        refine ⟨fun h => hnull ?_, fun h => hnull ?_⟩
        · exact BoundExpression.null_mem_of_nullHazard hw ha (hrows row hrow) h
        · exact BoundExpression.null_mem_of_twoValued hw (hrows row hrow)
            (by rw [htype]; decide) h

/-- A row whose NULL meets `<>` is dropped, and the other row is kept. -/
theorem where_null_semantics_inequality :
    let texts := [ascii "CREATE TABLE t (x INT)", ascii "INSERT INTO t VALUES (NULL)",
      ascii "INSERT INTO t VALUES (1)"]
    let sql := ascii "SELECT x FROM t WHERE x <> 2"
    let p : BoundExpression := .binary .boolean (.column .integer 1 0 (ascii "t") (ascii "x"))
      .notEqual (.literal .integer (.integer 2))
    (∀ row ∈ [[.null], [.integer 1]], p.conditionHazard row = false)
      ∧ (execute (engineAfter texts) sql).1 = .ok ⟨[ascii "x"], [[.integer 1]]⟩ := by
  intro texts sql p
  let table : TableInfo :=
    { id := 1, name := ascii "t", schema := ⟨[⟨ascii "x", .integer, true, 0⟩]⟩
      heapRootPageId := 1 }
  let clause : Expression := .binary (.columnRef (ascii "x")) .notEqual (.integerLiteral 2)
  -- one evaluation, so that the two statements before the SELECT run once
  obtain ⟨hrows, hparse, hbind⟩ :
      (engineAfter texts).sourceRows table = [[.null], [.integer 1]]
      ∧ parseSql sql = .ok (.select [⟨.columnRef (ascii "x"), []⟩] (ascii "t") (some clause))
      ∧ bind (engineAfter texts).catalog.getTable
          (.select [⟨.columnRef (ascii "x"), []⟩] (ascii "t") (some clause))
        = .ok (.select [.column .integer 1 0 (ascii "t") (ascii "x")] [[]] table (some p)) := by
    decide +kernel
  obtain ⟨ps, names, table', p', hbound, -, hsafe, -⟩ :=
    where_null_semantics texts sql _ _ _ hparse (by exact ⟨rfl, trivial, trivial⟩) _ hbind
  cases hbound
  rw [hrows] at hsafe
  have hnone : ∀ row ∈ [[.null], [.integer 1]], p.conditionHazard row = false := by decide
  exact ⟨hnone, (hsafe hnone).2.1.trans (by decide)⟩

/-- A stored NULL makes an ordering comparison fail. -/
theorem where_ordering_fails_on_null :
    let texts := [ascii "CREATE TABLE t (x INT)", ascii "INSERT INTO t VALUES (NULL)"]
    let sql := ascii "SELECT x FROM t WHERE x < 1"
    let clause : Expression := .binary (.columnRef (ascii "x")) .less (.integerLiteral 1)
    parseSql sql = .ok (.select [⟨.columnRef (ascii "x"), []⟩] (ascii "t") (some clause))
      ∧ clause.ArithmeticFree
      ∧ (∃ bound, bind (engineAfter texts).catalog.getTable
          (.select [⟨.columnRef (ascii "x"), []⟩] (ascii "t") (some clause)) = .ok bound)
      ∧ (execute (engineAfter texts) sql).1
          = errorResult .executionError (ascii "cannot compare NULL values") := by
  intro texts sql clause
  obtain ⟨hparse, hok, hrun⟩ :
      parseSql sql = .ok (.select [⟨.columnRef (ascii "x"), []⟩] (ascii "t") (some clause))
      ∧ (okValue (bind (engineAfter texts).catalog.getTable
          (.select [⟨.columnRef (ascii "x"), []⟩] (ascii "t") (some clause)))).isSome = true
      ∧ (execute (engineAfter texts) sql).1
          = errorResult .executionError (ascii "cannot compare NULL values") := by
    decide +kernel
  obtain ⟨bound, h⟩ := Option.isSome_iff_exists.mp hok
  exact ⟨hparse, ⟨rfl, trivial, trivial⟩, ⟨bound, okValue_eq_some_iff.mp h⟩, hrun⟩

end MattSql
