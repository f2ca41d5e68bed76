import MattSql.ExecutorProofs
import MattSql.OptimizerNormalProofs
import MattSql.Library.RunProofs

/-! # Rewriting plans

    `DefaultOptimizer` with rules that `AddRule` added, on plans of any shape.

    One plan refines another when it answers whenever the other does, with the
    same rows and the same effect.  Refinement is a preorder and a congruence, so
    a rule that works from the leaves up needs its step justified at one node
    (`LogicalPlan.RefinedBy.of_step`).  Constant folding and filter removal are
    such rules, on plans whose filters read only; any list of refining rules
    refines (`optimizer_refines_every_plan`).

    The converse fails: a filter that is FALSE hides the failures of its
    input. -/

namespace MattSql

open Fallible

/-! ## Plans as the physical planner takes them -/

/-- The plans that `plan_node` accepts, and what it makes of them. -/
inductive Plans : LogicalPlan → PhysicalPlan → Prop
  | createTable {request : CreateTableRequest} (named : request.name ≠ [])
      (columns : request.schema.columns ≠ []) :
      Plans (.createTable [] request) (.createTable [] request .heap)
  | insert {child : LogicalPlan} {planned : PhysicalPlan} {table : TableInfo}
      (named : table.name ≠ []) (input : Plans child planned) :
      Plans (.insert [child] table) (.insert [planned] table (makeTableStorageReference table))
  | projection {child : LogicalPlan} {planned : PhysicalPlan}
      {projections : List BoundExpression} {projectionNames : List Bytes}
      (nonempty : projections ≠ [])
      (names : ¬(projectionNames ≠ [] ∧ projectionNames.length ≠ projections.length))
      (free : ∀ e ∈ projections, e.StarFree) (input : Plans child planned) :
      Plans (.projection [child] projections projectionNames)
        (.projection [planned] projections projectionNames)
  | filter {child : LogicalPlan} {planned : PhysicalPlan} {predicate : BoundExpression}
      (boolean : predicate.type = .boolean) (free : predicate.StarFree)
      (input : Plans child planned) :
      Plans (.filter [child] predicate) (.filter [planned] predicate)
  | values {rows : List (List BoundExpression)} (free : ∀ row ∈ rows, ∀ e ∈ row, e.StarFree) :
      Plans (.values [] rows) (.values [] rows)
  | seqScan {table : TableInfo} (named : table.name ≠ []) :
      Plans (.seqScan [] table) (.seqScan [] table (makeTableStorageReference table))

/-- Induction on a tree from the leaves up. -/
theorem LogicalPlan.children_induction {motive : LogicalPlan → Prop}
    (hnode : ∀ plan : LogicalPlan, (∀ child ∈ plan.children, motive child) → motive plan)
    (plan : LogicalPlan) : motive plan := by
  refine @LogicalPlan.rec motive (fun children => ∀ child ∈ children, motive child)
    ?_ ?_ ?_ ?_ ?_ ?_ ?_ ?_ plan
  · exact fun children table h => hnode (.seqScan children table) h
  · exact fun children predicate h => hnode (.filter children predicate) h
  · exact fun children projections names h => hnode (.projection children projections names) h
  · exact fun children rows h => hnode (.values children rows) h
  · exact fun children table h => hnode (.insert children table) h
  · exact fun children request h => hnode (.createTable children request) h
  · exact fun child hchild => absurd hchild List.not_mem_nil
  · intro child rest hchild hrest other hother
    rcases List.mem_cons.mp hother with rfl | hother
    · exact hchild
    · exact hrest other hother

theorem cloneBoundExpression_free {e e' : BoundExpression} (h : cloneBoundExpression e = .ok e') :
    e.StarFree := by
  induction e generalizing e' with
  | literal type value => trivial
  | column type tableId columnId tableName columnName => trivial
  | unary type op operand ih =>
      obtain ⟨operand', hoperand, -⟩ := bind_ok_iff.mp h
      exact ih hoperand
  | binary type left op right ihl ihr =>
      obtain ⟨left', hleft, h⟩ := bind_ok_iff.mp h
      obtain ⟨right', hright, -⟩ := bind_ok_iff.mp h
      exact ⟨ihl hleft, ihr hright⟩
  | star type => cases h

theorem cloneBoundExpressions_free {es es' : List BoundExpression}
    (h : cloneBoundExpressions es = .ok es') : ∀ e ∈ es, e.StarFree := by
  intro e he
  obtain ⟨e', he'⟩ := mapM_ok_mem h e he
  exact cloneBoundExpression_free he'

theorem cloneBoundExpressionRows_free {rows rows' : List (List BoundExpression)}
    (h : cloneBoundExpressionRows rows = .ok rows') : ∀ row ∈ rows, ∀ e ∈ row, e.StarFree := by
  intro row hrow
  obtain ⟨row', hrow'⟩ := mapM_ok_mem h row hrow
  exact cloneBoundExpressions_free hrow'

theorem requireChildCount_ok {α : Type} {children : List α} {expected : Nat} {name : Bytes}
    {code : ErrorCode} (h : requireChildCount children expected name code = .ok ()) :
    children.length = expected := by
  rw [requireChildCount] at h
  split at h
  · cases h
  · rename_i hcount
    exact not_not.mp hcount

/-- The planner on one input. -/
theorem planChildren_singleton_ok {child : LogicalPlan} {planned : List PhysicalPlan}
    (h : planChildren [child] = .ok planned) :
    ∃ plan, planNode child = .ok plan ∧ planned = [plan] := by
  rw [planChildren] at h
  obtain ⟨plan, hplan, h⟩ := bind_ok_iff.mp h
  cases h
  exact ⟨plan, hplan, rfl⟩

/-- The planner accepts nothing else. -/
theorem plans_of_planNode {plan : LogicalPlan} {physical : PhysicalPlan}
    (h : planNode plan = .ok physical) : Plans plan physical := by
  induction plan using LogicalPlan.children_induction generalizing physical with
  | hnode plan ih =>
      cases plan with
      | createTable children request =>
          rw [planNode] at h
          obtain ⟨⟨⟩, hcount, hnode⟩ := bind_ok_iff.mp h
          obtain rfl := List.length_eq_zero_iff.mp (requireChildCount_ok hcount)
          obtain ⟨hname, hnode⟩ := guard_ok_iff.mp hnode
          obtain ⟨hcolumns, hnode⟩ := guard_ok_iff.mp hnode
          cases hnode
          exact .createTable hname hcolumns
      | insert children table =>
          rw [planNode] at h
          obtain ⟨⟨⟩, hcount, hnode⟩ := bind_ok_iff.mp h
          obtain ⟨child, rfl⟩ := List.length_eq_one_iff.mp (requireChildCount_ok hcount)
          obtain ⟨hname, hnode⟩ := guard_ok_iff.mp hnode
          obtain ⟨planned, hplanned, hnode⟩ := bind_ok_iff.mp hnode
          obtain ⟨plan, hplan, rfl⟩ := planChildren_singleton_ok hplanned
          cases hnode
          exact .insert hname (ih child List.mem_cons_self hplan)
      | projection children projections projectionNames =>
          rw [planNode] at h
          obtain ⟨⟨⟩, hcount, hnode⟩ := bind_ok_iff.mp h
          obtain ⟨child, rfl⟩ := List.length_eq_one_iff.mp (requireChildCount_ok hcount)
          obtain ⟨hne, hnode⟩ := guard_ok_iff.mp hnode
          obtain ⟨hnames, hnode⟩ := guard_ok_iff.mp hnode
          obtain ⟨planned, hplanned, hnode⟩ := bind_ok_iff.mp hnode
          obtain ⟨plan, hplan, rfl⟩ := planChildren_singleton_ok hplanned
          obtain ⟨cloned, hclone, hnode⟩ := bind_ok_iff.mp hnode
          have hfree := cloneBoundExpressions_free hclone
          rw [cloneBoundExpressions_eq hfree] at hclone
          cases hclone
          cases hnode
          exact .projection hne hnames hfree (ih child List.mem_cons_self hplan)
      | filter children predicate =>
          rw [planNode] at h
          obtain ⟨⟨⟩, hcount, hnode⟩ := bind_ok_iff.mp h
          obtain ⟨child, rfl⟩ := List.length_eq_one_iff.mp (requireChildCount_ok hcount)
          obtain ⟨htype, hnode⟩ := guard_ok_iff.mp hnode
          obtain ⟨planned, hplanned, hnode⟩ := bind_ok_iff.mp hnode
          obtain ⟨plan, hplan, rfl⟩ := planChildren_singleton_ok hplanned
          obtain ⟨cloned, hclone, hnode⟩ := bind_ok_iff.mp hnode
          have hfree := cloneBoundExpression_free hclone
          rw [cloneBoundExpression_eq hfree] at hclone
          cases hclone
          cases hnode
          exact .filter (not_not.mp htype) hfree (ih child List.mem_cons_self hplan)
      | values children rows =>
          rw [planNode] at h
          obtain ⟨⟨⟩, hcount, hnode⟩ := bind_ok_iff.mp h
          obtain rfl := List.length_eq_zero_iff.mp (requireChildCount_ok hcount)
          obtain ⟨cloned, hclone, hnode⟩ := bind_ok_iff.mp hnode
          have hfree := cloneBoundExpressionRows_free hclone
          rw [cloneBoundExpressionRows_eq hfree] at hclone
          cases hclone
          cases hnode
          exact .values hfree
      | seqScan children table =>
          rw [planNode] at h
          obtain ⟨⟨⟩, hcount, hnode⟩ := bind_ok_iff.mp h
          obtain rfl := List.length_eq_zero_iff.mp (requireChildCount_ok hcount)
          obtain ⟨hname, hnode⟩ := guard_ok_iff.mp hnode
          cases hnode
          exact .seqScan hname

/-- The planner accepts all of them. -/
theorem Plans.planNode_eq {plan : LogicalPlan} {physical : PhysicalPlan}
    (h : Plans plan physical) : planNode plan = .ok physical := by
  have hone : ∀ {child : LogicalPlan} {planned : PhysicalPlan}, planNode child = .ok planned →
      planChildren [child] = .ok [planned] := by
    intro child planned hchild
    rw [planChildren, hchild]
    rfl
  induction h with
  | @createTable request hname hcolumns =>
      rw [planNode]
      show (if request.name = [] then _ else if request.schema.columns = [] then _ else _) = _
      rw [if_neg hname, if_neg hcolumns]
  | @insert child planned table hname _ ih =>
      rw [planNode]
      show (if table.name = [] then _ else _) = _
      rw [if_neg hname, hone ih]
      rfl
  | @projection child planned projections projectionNames hne hnames hfree _ ih =>
      rw [planNode]
      show (if projections = [] then _ else if _ then _ else _) = _
      rw [if_neg hne, if_neg hnames, hone ih, ok_bind, cloneBoundExpressions_eq hfree]
      rfl
  | @filter child planned predicate htype hfree _ ih =>
      exact planNode_filter ih hfree htype
  | @values rows hfree =>
      rw [planNode]
      show (cloneBoundExpressionRows rows >>= _) = _
      rw [cloneBoundExpressionRows_eq hfree]
      rfl
  | @seqScan table hname =>
      rw [planNode]
      show (if table.name = [] then _ else _) = _
      rw [if_neg hname]

/-- **PHYSICAL PLANNING** is this relation. -/
theorem planPhysical_iff {plan : LogicalPlan} {physical : PhysicalPlan} :
    planPhysical plan = .ok physical ↔ Plans plan physical :=
  ⟨plans_of_planNode, Plans.planNode_eq⟩

/-! ## Refinement -/

def LogicalPlan.isFilter : LogicalPlan → Bool
  | .filter _ _ => true
  | _ => false

/-- Answers that agree: they are the same or, for a filter, both are empty. -/
def ExecutionResult.Agrees (filtered : Bool) (result result' : ExecutionResult) : Prop :=
  result' = result ∨ filtered = true ∧ result.rows = [] ∧ result'.rows = []

/-- Whenever one physical plan answers, the other does so with an answer that
    agrees, and has the same effect. -/
def PhysicalPlan.AnswersFor (filtered : Bool) (planned planned' : PhysicalPlan) : Prop :=
  ∀ transaction db result db', executePlan transaction planned db = (.ok result, db') →
    ∃ result', executePlan transaction planned' db = (.ok result', db')
      ∧ result.Agrees filtered result'

/-- One logical plan refines another: it is planned when the other is, and
    answers for it.  Only a filter may give way to a filter. -/
structure LogicalPlan.RefinedBy (plan plan' : LogicalPlan) : Prop where
  kind : plan'.isFilter = true → plan.isFilter = true
  plans : ∀ planned, Plans plan planned → ∃ planned', Plans plan' planned'
    ∧ planned.AnswersFor plan.isFilter planned'

theorem ExecutionResult.Agrees.refl (filtered : Bool) (result : ExecutionResult) :
    result.Agrees filtered result := .inl rfl

theorem ExecutionResult.Agrees.rows_eq {filtered : Bool} {result result' : ExecutionResult}
    (h : result.Agrees filtered result') : result'.rows = result.rows := by
  rcases h with rfl | ⟨-, hnil, hnil'⟩
  · rfl
  · rw [hnil, hnil']

theorem ExecutionResult.Agrees.trans {filtered filtered' : Bool}
    {result result' result'' : ExecutionResult} (h : result.Agrees filtered result')
    (hkind : filtered' = true → filtered = true) (h' : result'.Agrees filtered' result'') :
    result.Agrees filtered result'' := by
  rcases h' with rfl | ⟨hfiltered, hnil, hnil'⟩
  · exact h
  · exact .inr ⟨hkind hfiltered, h.rows_eq ▸ hnil, hnil'⟩

theorem PhysicalPlan.AnswersFor.of_eq {filtered : Bool} {planned planned' : PhysicalPlan}
    (h : ∀ transaction db,
      executePlan transaction planned' db = executePlan transaction planned db) :
    planned.AnswersFor filtered planned' :=
  fun transaction db result _ hrun => ⟨result, (h transaction db).trans hrun, .refl _ _⟩

theorem LogicalPlan.RefinedBy.refl (plan : LogicalPlan) : plan.RefinedBy plan :=
  ⟨id, fun planned h => ⟨planned, h, .of_eq fun _ _ => rfl⟩⟩

theorem LogicalPlan.RefinedBy.trans {plan plan' plan'' : LogicalPlan} (h : plan.RefinedBy plan')
    (h' : plan'.RefinedBy plan'') : plan.RefinedBy plan'' := by
  refine ⟨h.kind ∘ h'.kind, fun planned hplanned => ?_⟩
  obtain ⟨planned', hplanned', hanswers⟩ := h.plans planned hplanned
  obtain ⟨planned'', hplanned'', hanswers'⟩ := h'.plans planned' hplanned'
  refine ⟨planned'', hplanned'', fun transaction db result db' hrun => ?_⟩
  obtain ⟨result', hrun', hagrees⟩ := hanswers transaction db result db' hrun
  obtain ⟨result'', hrun'', hagrees'⟩ := hanswers' transaction db result' db' hrun'
  exact ⟨result'', hrun'', hagrees.trans h.kind hagrees'⟩

/-- A step on the input's answer. -/
theorem PhysicalPlan.AnswersFor.onInput {filtered filtered' : Bool}
    {planned planned' : PhysicalPlan} (h : planned.AnswersFor filtered planned')
    {step step' : ExecutionResult → Result ExecutionResult}
    (hstep : ∀ input input' result, input.Agrees filtered input' → step input = .ok result →
      ∃ result', step' input' = .ok result' ∧ result.Agrees filtered' result')
    {transaction : Transaction} {db db' : Database} {result : ExecutionResult}
    (hrun : onInput step (executePlan transaction planned db) = (.ok result, db')) :
    ∃ result', onInput step' (executePlan transaction planned' db) = (.ok result', db')
      ∧ result.Agrees filtered' result' := by
  rw [MattSql.onInput] at hrun
  obtain ⟨hresult, hdb⟩ := Prod.mk.inj hrun
  obtain ⟨input, hinput, hresult⟩ := bind_ok_iff.mp hresult
  obtain ⟨input', hinput', hagrees⟩ :=
    h transaction db input db' (Prod.ext hinput hdb)
  obtain ⟨result', hresult', hagrees'⟩ := hstep input input' result hagrees hresult
  refine ⟨result', ?_, hagrees'⟩
  rw [MattSql.onInput, hinput']
  exact Prod.ext hresult' rfl

/-- A projection makes the same of answers that agree. -/
theorem executeProjection_agrees {filtered : Bool} {projections : List BoundExpression}
    {projectionNames : List Bytes} {input input' : ExecutionResult}
    (h : input.Agrees filtered input') :
    executeProjection projections projectionNames input'
      = executeProjection projections projectionNames input := by
  rcases h with rfl | ⟨-, hnil, hnil'⟩
  · rfl
  · rw [executeProjection, executeProjection, hnil, hnil']
    rfl

theorem executeFilter_agrees {filtered : Bool} {predicate : BoundExpression}
    {input input' result : ExecutionResult} (h : input.Agrees filtered input')
    (hresult : executeFilter predicate input = .ok result) :
    ∃ result', executeFilter predicate input' = .ok result' ∧ result.Agrees true result' := by
  rcases h with rfl | ⟨-, hnil, hnil'⟩
  · exact ⟨result, hresult, .refl _ _⟩
  · rw [executeFilter, hnil] at hresult
    rw [executeFilter, hnil']
    cases hresult
    exact ⟨_, rfl, .inr ⟨rfl, rfl, rfl⟩⟩

/-- An INSERT looks at the rows of its input alone. -/
theorem executeInsert_rows {table : TableInfo} {storage : TableStorageReference}
    {input input' : ExecutionResult} (h : input'.rows = input.rows) (db : Database) :
    executeInsert table storage (.ok input', db) = executeInsert table storage (.ok input, db) := by
  simp only [executeInsert, h]

theorem LogicalPlan.isFilter_withChildren (children : List LogicalPlan) (plan : LogicalPlan) :
    (plan.withChildren children).isFilter = plan.isFilter := by
  cases plan <;> rfl

/-- **REFINEMENT IS A CONGRUENCE**: other inputs that refine the inputs. -/
theorem LogicalPlan.RefinedBy.withChildren {plan : LogicalPlan} {inputs : List LogicalPlan}
    (h : List.Forall₂ LogicalPlan.RefinedBy plan.children inputs) :
    plan.RefinedBy (plan.withChildren inputs) := by
  refine ⟨fun hkind => (plan.isFilter_withChildren inputs) ▸ hkind, fun planned hplanned => ?_⟩
  cases hplanned with
  | createTable hname hcolumns =>
      cases h
      exact ⟨_, .createTable hname hcolumns, .of_eq fun _ _ => rfl⟩
  | values hfree =>
      cases h
      exact ⟨_, .values hfree, .of_eq fun _ _ => rfl⟩
  | seqScan hname =>
      cases h
      exact ⟨_, .seqScan hname, .of_eq fun _ _ => rfl⟩
  | @insert child planned table hname hinput =>
      rcases h with _ | @⟨_, input, _, _, hchild, hnil⟩
      cases hnil
      obtain ⟨planned', hplanned', hanswers⟩ := hchild.plans planned hinput
      refine ⟨_, .insert hname hplanned', fun transaction db result db' hrun => ?_⟩
      rw [executePlan] at hrun ⊢
      cases hwritable : requireWritable transaction with
      | error st =>
          rw [hwritable] at hrun
          cases hrun
      | ok =>
          rw [hwritable] at hrun
          dsimp only at hrun ⊢
          rw [if_neg (not_not.mpr rfl)] at hrun ⊢
          rcases hreply : executePlan transaction planned db with ⟨st | input, after⟩
          · rw [hreply] at hrun
            cases hrun
          · obtain ⟨input', hinput', hagrees⟩ := hanswers transaction db input after hreply
            rw [hreply] at hrun
            rw [hinput', executeInsert_rows hagrees.rows_eq]
            exact ⟨result, hrun, .refl _ _⟩
  | @projection child planned projections projectionNames hne hnames hfree hinput =>
      rcases h with _ | @⟨_, input, _, _, hchild, hnil⟩
      cases hnil
      obtain ⟨planned', hplanned', hanswers⟩ := hchild.plans planned hinput
      refine ⟨_, .projection hne hnames hfree hplanned', fun transaction db result db' hrun => ?_⟩
      rw [executePlan, if_neg hne, if_neg hnames] at hrun ⊢
      refine hanswers.onInput (fun input input' result hagrees hresult => ?_) hrun
      exact ⟨result, (executeProjection_agrees hagrees).trans hresult, .refl _ _⟩
  | @filter child planned predicate htype hfree hinput =>
      rcases h with _ | @⟨_, input, _, _, hchild, hnil⟩
      cases hnil
      obtain ⟨planned', hplanned', hanswers⟩ := hchild.plans planned hinput
      refine ⟨_, .filter htype hfree hplanned', fun transaction db result db' hrun => ?_⟩
      rw [executePlan] at hrun ⊢
      exact hanswers.onInput (fun _ _ _ => executeFilter_agrees) hrun

/-! ## Rules from the leaves up -/

section

variable {rule step : LogicalPlan → Result LogicalPlan} {P : LogicalPlan → Prop}

/-- A property of all nodes survives a rule that works from the leaves up when
    the step at a node makes it of the node and its rewritten inputs. -/
theorem LogicalPlan.Everywhere.rewrite
    (hrule : ∀ plan, rule plan
      = plan.children.mapM rule >>= fun inputs => step (plan.withChildren inputs))
    (hstep : ∀ {node node' : LogicalPlan} {inputs : List LogicalPlan}, P node →
      List.Forall₂ (fun child input => rule child = .ok input) node.children inputs →
      (∀ input ∈ inputs, input.Everywhere P) → step (node.withChildren inputs) = .ok node' →
      node'.Everywhere P)
    {plan plan' : LogicalPlan} (h : plan.Everywhere P) (hplan : rule plan = .ok plan') :
    plan'.Everywhere P := by
  induction h generalizing plan' with
  | @node plan own _ ih =>
      rw [hrule] at hplan
      obtain ⟨inputs, hinputs, hnode⟩ := bind_ok_iff.mp hplan
      have hchildren := mapM_ok_iff.mp hinputs
      refine hstep own hchildren (fun input hinput => ?_) hnode
      obtain ⟨child, hchild, hok⟩ := forall₂_exists_left hchildren input hinput
      exact ih child hchild hok

/-- **A RULE REFINES** when its step refines each node over its rewritten
    inputs. -/
theorem LogicalPlan.RefinedBy.of_step
    (hrule : ∀ plan, rule plan
      = plan.children.mapM rule >>= fun inputs => step (plan.withChildren inputs))
    (hstep : ∀ {node node' : LogicalPlan} {inputs : List LogicalPlan}, P node →
      List.Forall₂ (fun child input => rule child = .ok input) node.children inputs →
      step (node.withChildren inputs) = .ok node' → (node.withChildren inputs).RefinedBy node')
    {plan plan' : LogicalPlan} (h : plan.Everywhere P) (hplan : rule plan = .ok plan') :
    plan.RefinedBy plan' := by
  induction h generalizing plan' with
  | @node plan own _ ih =>
      rw [hrule] at hplan
      obtain ⟨inputs, hinputs, hnode⟩ := bind_ok_iff.mp hplan
      have hchildren := mapM_ok_iff.mp hinputs
      refine (LogicalPlan.RefinedBy.withChildren ?_).trans (hstep own hchildren hnode)
      have hrefined := (List.forall₂_and_left (p := fun child => ∀ plan',
        rule child = .ok plan' → child.RefinedBy plan') plan.children inputs).mpr
          ⟨fun child hchild _ hok => ih child hchild hok, hchildren⟩
      exact hrefined.imp fun child input h => h.1 input h.2

end

/-! ## Plans that the default rules refine -/

def LogicalPlan.isWriter : LogicalPlan → Bool
  | .insert _ _ => true
  | .createTable _ _ => true
  | _ => false

/-- No INSERT and no CREATE TABLE occurs. -/
def LogicalPlan.Reads (plan : LogicalPlan) : Prop :=
  plan.Everywhere fun node => node.isWriter = false

/-- A node with the types of its operators' results, over inputs that only read
    if it is a filter. -/
structure LogicalPlan.Rewritable (node : LogicalPlan) : Prop where
  typed : ∀ e ∈ node.expressions, e.OperatorTyped
  reads : ∀ children predicate, node = .filter children predicate →
    ∀ child ∈ children, child.Reads

theorem LogicalPlan.isWriter_withChildren (children : List LogicalPlan) (plan : LogicalPlan) :
    (plan.withChildren children).isWriter = plan.isWriter := by
  cases plan <;> rfl

/-- What only reads has no effect. -/
theorem Plans.frame {plan : LogicalPlan} {planned : PhysicalPlan} (h : Plans plan planned)
    (hreads : plan.Reads) (transaction : Transaction) (db : Database) :
    (executePlan transaction planned db).2 = db := by
  induction h with
  | createTable => cases hreads with | node own => cases own
  | insert => cases hreads with | node own => cases own
  | projection hne hnames _ _ ih =>
      cases hreads with
      | node _ inputs =>
          rw [executePlan, if_neg hne, if_neg hnames]
          exact ih (inputs _ List.mem_cons_self)
  | filter _ _ _ ih =>
      cases hreads with
      | node _ inputs =>
          rw [executePlan]
          exact ih (inputs _ List.mem_cons_self)
  | values => rfl
  | seqScan => rfl

/-- Other inputs that read where the inputs did. -/
theorem LogicalPlan.Rewritable.withChildren {node : LogicalPlan} (h : node.Rewritable)
    {inputs : List LogicalPlan}
    (hinputs : List.Forall₂ (fun child input : LogicalPlan => child.Reads → input.Reads)
      node.children inputs) : (node.withChildren inputs).Rewritable := by
  refine ⟨?_, fun children predicate heq input hinput => ?_⟩
  · rw [LogicalPlan.expressions_withChildren]
    exact h.typed
  · cases node with
    | filter befores p =>
        cases heq
        obtain ⟨child, hchild, hreads⟩ := forall₂_exists_left hinputs input hinput
        exact hreads (h.reads befores predicate rfl child hchild)
    | _ => cases heq

/-! ## Constant folding -/

/-- Folding a node keeps its kind and its inputs, and folds its expressions. -/
theorem foldNode_ok {node node' : LogicalPlan} (h : foldNode node = .ok node') :
    node'.children = node.children ∧ node'.isFilter = node.isFilter
      ∧ node'.isWriter = node.isWriter
      ∧ List.Forall₂ (fun e e' => foldExpression e = .ok e')
        node.expressions node'.expressions := by
  cases node with
  | filter children predicate =>
      obtain ⟨predicate', hfold, h⟩ := bind_ok_iff.mp h
      cases h
      exact ⟨rfl, rfl, rfl, .cons hfold .nil⟩
  | projection children projections projectionNames =>
      obtain ⟨projections', hfold, h⟩ := bind_ok_iff.mp h
      cases h
      exact ⟨rfl, rfl, rfl, mapM_ok_iff.mp hfold⟩
  | values children rows =>
      obtain ⟨rows', hfold, h⟩ := bind_ok_iff.mp h
      cases h
      refine ⟨rfl, rfl, rfl, List.rel_flatten ?_⟩
      exact (mapM_ok_iff.mp hfold).imp fun _ _ hrow => mapM_ok_iff.mp hrow
  | seqScan children table =>
      cases h
      exact ⟨rfl, rfl, rfl, .nil⟩
  | insert children table =>
      cases h
      exact ⟨rfl, rfl, rfl, .nil⟩
  | createTable children request =>
      cases h
      exact ⟨rfl, rfl, rfl, .nil⟩

theorem foldCurrentExpression_operatorTyped {e e' : BoundExpression} (h : e.OperatorTyped)
    (hf : foldCurrentExpression e = .ok e') : e'.OperatorTyped := by
  rcases foldCurrentExpression_spec e with hkeep | ⟨folded, hfold, -⟩
  · rw [hkeep] at hf
    cases hf
    exact h
  · rw [hfold] at hf
    cases hf
    trivial

theorem foldExpression_operatorTyped {e e' : BoundExpression} (h : e.OperatorTyped)
    (hf : foldExpression e = .ok e') : e'.OperatorTyped := by
  rw [foldExpression] at hf
  cases e with
  | unary type op operand =>
      obtain ⟨operand', -, hf⟩ := bind_ok_iff.mp hf
      exact @foldCurrentExpression_operatorTyped (.unary type op operand') _ h hf
  | binary type left op right =>
      obtain ⟨left', -, hf⟩ := bind_ok_iff.mp hf
      obtain ⟨right', -, hf⟩ := bind_ok_iff.mp hf
      exact @foldCurrentExpression_operatorTyped (.binary type left' op right') _ h hf
  | literal type value => exact @foldCurrentExpression_operatorTyped (.literal type value) _ h hf
  | column type tableId columnId tableName columnName =>
      cases hf
      trivial
  | star type => cases hf

/-- A folded expression that is planned: the same outcome, output name and
    type. -/
theorem foldsTo_of_ok {e e' : BoundExpression} (hfree : e.StarFree) (htyped : e.OperatorTyped)
    (h : foldExpression e = .ok e') : FoldsTo e e' ∧ e'.type = e.type := by
  obtain ⟨folded, hfold, hto⟩ := foldExpression_spec hfree
  have htype := foldExpression_type htyped h
  rw [h] at hfold
  cases hfold
  exact ⟨hto, htype⟩

theorem foldsTo_all {es es' : List BoundExpression} (hfree : ∀ e ∈ es, e.StarFree)
    (htyped : ∀ e ∈ es, e.OperatorTyped)
    (h : List.Forall₂ (fun e e' => foldExpression e = .ok e') es es') :
    List.Forall₂ (fun e e' => FoldsTo e e' ∧ e'.type = e.type) es es' := by
  have hall := (List.forall₂_and_left (p := fun e => e.StarFree ∧ e.OperatorTyped) es es').mpr
    ⟨fun e he => ⟨hfree e he, htyped e he⟩, h⟩
  exact hall.imp fun e e' h => foldsTo_of_ok h.1.1 h.1.2 h.2

/-- A projection of folded expressions has the same columns and rows. -/
theorem executeProjection_of_folds {es es' : List BoundExpression}
    (h : List.Forall₂ (fun e e' => FoldsTo e e' ∧ e'.type = e.type) es es') (names : List Bytes)
    (input : ExecutionResult) :
    executeProjection es' names input = executeProjection es names input := by
  have hcolumns : ∀ start : Nat,
      ((es'.zipIdx start).map fun entry => projectionColumn names entry.2 entry.1)
        = (es.zipIdx start).map fun entry => projectionColumn names entry.2 entry.1 := by
    induction h with
    | nil => exact fun _ => rfl
    | @cons e e' es es' hto _ ih =>
        intro start
        rw [List.zipIdx_cons, List.zipIdx_cons, List.map_cons, List.map_cons, ih]
        unfold projectionColumn
        dsimp only
        rw [hto.1.name_eq, hto.2]
  unfold executeProjection projectRows
  rw [hcolumns 0]
  simp only [evaluateExpressions_folded (h.imp fun _ _ hto => hto.1)]

theorem executeValues_folded {rows rows' : List (List BoundExpression)}
    (h : List.Forall₂ (List.Forall₂ FoldsTo) rows rows') :
    executeValues rows' = executeValues rows := by
  have hrows : (rows'.mapM fun row => evaluateExpressions row {})
      = rows.mapM fun row => evaluateExpressions row {} := by
    induction h with
    | nil => rfl
    | cons hrow _ ih => rw [List.mapM_cons, List.mapM_cons, evaluateExpressions_folded hrow, ih]
  rw [executeValues, executeValues, hrows]

/-- Folding the node itself changes no run. -/
theorem foldNode_refines {node node' : LogicalPlan}
    (htyped : ∀ e ∈ node.expressions, e.OperatorTyped) (h : foldNode node = .ok node') :
    node.RefinedBy node' := by
  obtain ⟨hchildren, hkind, -, hfolds⟩ := foldNode_ok h
  refine ⟨fun hfilter => hkind ▸ hfilter, fun planned hplanned => ?_⟩
  cases hplanned with
  | createTable hname hcolumns =>
      cases h
      exact ⟨_, .createTable hname hcolumns, .of_eq fun _ _ => rfl⟩
  | insert hname hinput =>
      cases h
      exact ⟨_, .insert hname hinput, .of_eq fun _ _ => rfl⟩
  | seqScan hname =>
      cases h
      exact ⟨_, .seqScan hname, .of_eq fun _ _ => rfl⟩
  | @filter child planned predicate htype hfree hinput =>
      obtain ⟨predicate', hfold, h⟩ := bind_ok_iff.mp h
      cases h
      obtain ⟨hto, htype'⟩ := foldsTo_of_ok hfree (htyped predicate List.mem_cons_self) hfold
      refine ⟨_, .filter (htype'.trans htype) hto.starFree hinput, .of_eq fun _ _ => ?_⟩
      rw [executePlan, executePlan]
      congr 1
      funext input
      rw [executeFilter, executeFilter, filterRows_folded hto]
  | @projection child planned projections projectionNames hne hnames hfree hinput =>
      obtain ⟨projections', hfold, h⟩ := bind_ok_iff.mp h
      cases h
      have hto := foldsTo_all hfree htyped (mapM_ok_iff.mp hfold)
      have hlen := hto.length_eq
      have hne' : projections' ≠ [] := fun hnil => hne (List.length_eq_zero_iff.mp
        (hlen.trans (List.length_eq_zero_iff.mpr hnil)))
      have hnames' := hlen ▸ hnames
      have hfree' : ∀ e ∈ projections', e.StarFree := by
        intro e he
        obtain ⟨_, -, hfolds, -⟩ := forall₂_exists_left hto e he
        exact hfolds.starFree
      refine ⟨_, .projection hne' hnames' hfree' hinput, .of_eq fun _ _ => ?_⟩
      rw [executePlan, executePlan, if_neg hne, if_neg hne', if_neg hnames, if_neg hnames']
      congr 1
      funext input
      exact executeProjection_of_folds hto projectionNames input
  | @values rows hfree =>
      obtain ⟨rows', hfold, h⟩ := bind_ok_iff.mp h
      cases h
      have hrows : List.Forall₂ (List.Forall₂ FoldsTo) rows rows' := by
        have hall := (List.forall₂_and_left
          (p := fun row => ∀ e ∈ row, e.StarFree ∧ e.OperatorTyped) rows rows').mpr
          ⟨fun row hrow e he => ⟨hfree row hrow e he, htyped e (List.mem_flatten_of_mem hrow he)⟩,
            mapM_ok_iff.mp hfold⟩
        refine hall.imp fun row row' h => ?_
        exact (foldsTo_all (fun e he => (h.1 e he).1) (fun e he => (h.1 e he).2)
          (mapM_ok_iff.mp h.2)).imp fun _ _ hto => hto.1
      have hfree' : ∀ row ∈ rows', ∀ e ∈ row, e.StarFree := by
        intro row hrow e he
        obtain ⟨_, -, hfolds⟩ := forall₂_exists_left hrows row hrow
        obtain ⟨_, -, hto⟩ := forall₂_exists_left hfolds e he
        exact hto.starFree
      refine ⟨_, .values hfree', .of_eq fun _ _ => ?_⟩
      rw [executePlan, executePlan, executeValues_folded hrows]

/-- Folding keeps what only reads, and what the rules refine. -/
theorem foldPlan_reads {plan plan' : LogicalPlan} (h : plan.Reads)
    (hplan : foldPlan plan = .ok plan') : plan'.Reads := by
  refine h.rewrite foldPlan_eq (fun hreads _ hinputs hnode => ?_) hplan
  obtain ⟨hchildren, -, hwriter, -⟩ := foldNode_ok hnode
  refine .node (hwriter.trans ((LogicalPlan.isWriter_withChildren _ _).trans hreads)) ?_
  rw [hchildren, LogicalPlan.children_withChildren]
  exact hinputs

theorem foldNode_rewritable {node node' : LogicalPlan} (h : node.Rewritable)
    (hfold : foldNode node = .ok node') : node'.Rewritable := by
  obtain ⟨hchildren, hkind, -, hfolds⟩ := foldNode_ok hfold
  refine ⟨fun e' he' => ?_, fun children predicate heq => ?_⟩
  · obtain ⟨e, he, hok⟩ := forall₂_exists_left hfolds e' he'
    exact foldExpression_operatorTyped (h.typed e he) hok
  · subst heq
    cases node with
    | filter befores p =>
        obtain rfl : children = befores := hchildren
        exact h.reads children p rfl
    | _ => cases hkind

theorem foldPlan_rewritable {plan plan' : LogicalPlan} (h : plan.Everywhere LogicalPlan.Rewritable)
    (hplan : foldPlan plan = .ok plan') : plan'.Everywhere LogicalPlan.Rewritable := by
  refine h.rewrite foldPlan_eq (fun hnode hchildren hinputs hfold => ?_) hplan
  have hover := hnode.withChildren (hchildren.imp fun _ _ hok hreads => foldPlan_reads hreads hok)
  refine .node (foldNode_rewritable hover hfold) ?_
  rw [(foldNode_ok hfold).1, LogicalPlan.children_withChildren]
  exact hinputs

theorem foldPlan_refines {plan plan' : LogicalPlan} (h : plan.Everywhere LogicalPlan.Rewritable)
    (hplan : foldPlan plan = .ok plan') : plan.RefinedBy plan' := by
  refine .of_step foldPlan_eq (fun hnode _ hfold => foldNode_refines ?_ hfold) h hplan
  rw [LogicalPlan.expressions_withChildren]
  exact hnode.typed

/-! ## Filters with a constant predicate -/

/-- A filter gives way to its input, to no rows, or stays. -/
theorem removeNode_ok {node node' : LogicalPlan} (h : removeNode node = .ok node') :
    node' = node ∨ ∃ children type b, node = .filter children (.literal type (.boolean b))
      ∧ if b then children = [node'] else node' = .values [] [] := by
  cases node with
  | filter children predicate =>
      have h : removeFilter children predicate = .ok node' := h
      unfold removeFilter at h
      cases hlit : booleanLiteral predicate with
      | none =>
          rw [hlit] at h
          cases h
          exact .inl rfl
      | some b =>
          obtain ⟨type, rfl⟩ := booleanLiteral_eq_some hlit
          rw [hlit] at h
          refine .inr ⟨children, type, b, rfl, ?_⟩
          cases b with
          | true =>
              rcases children with _ | ⟨child, _ | ⟨other, rest⟩⟩
              · cases h
              · cases h
                rfl
              · cases h
          | false =>
              cases h
              rfl
  | _ =>
      cases h
      exact .inl rfl

/-- Removing a filter over inputs that only read. -/
theorem removeNode_refines {node node' : LogicalPlan}
    (hreads : ∀ children predicate, node = .filter children predicate →
      ∀ child ∈ children, child.Reads)
    (h : removeNode node = .ok node') : node.RefinedBy node' := by
  rcases removeNode_ok h with rfl | ⟨children, type, b, rfl, hb⟩
  · exact .refl node'
  · refine ⟨fun _ => rfl, fun planned hplanned => ?_⟩
    cases hplanned with
    | @filter child planned _ htype hfree hinput =>
        -- an answer is the input's, or the input's without its rows
        have hanswer : ∀ {transaction db result db'},
            executePlan transaction (.filter [planned] (.literal type (.boolean b))) db
              = (.ok result, db') →
            ∃ input, executePlan transaction planned db = (.ok input, db')
              ∧ result = { input with rows := if b then input.rows else [] } := by
          intro transaction db result db' hrun
          rw [executePlan, onInput] at hrun
          obtain ⟨hresult, hdb⟩ := Prod.mk.inj hrun
          obtain ⟨input, hinput, hresult⟩ := bind_ok_iff.mp hresult
          rw [executeFilter, filterRows_constant (FoldsTo.refl trivial)] at hresult
          cases hresult
          exact ⟨input, Prod.ext hinput hdb, rfl⟩
        cases b with
        | true =>
            cases hb
            refine ⟨planned, hinput, fun transaction db result db' hrun => ?_⟩
            obtain ⟨input, hinner, rfl⟩ := hanswer hrun
            exact ⟨input, hinner, .refl _ _⟩
        | false =>
            obtain rfl : node' = .values [] [] := hb
            refine ⟨.values [] [], .values (List.forall_mem_nil _),
              fun transaction db result db' hrun => ?_⟩
            obtain ⟨input, hinner, rfl⟩ := hanswer hrun
            have hframe := hinput.frame (hreads _ _ rfl child List.mem_cons_self) transaction db
            rw [hinner] at hframe
            cases hframe
            exact ⟨_, rfl, .inr ⟨rfl, rfl, rfl⟩⟩

/-- Removing a filter leaves nodes that were there, or one without rows. -/
theorem removeNode_everywhere {P : LogicalPlan → Prop} {node node' : LogicalPlan} (hown : P node)
    (hempty : P (.values [] [])) (hinputs : ∀ input ∈ node.children, input.Everywhere P)
    (h : removeNode node = .ok node') : node'.Everywhere P := by
  rcases removeNode_ok h with rfl | ⟨children, type, b, rfl, hb⟩
  · exact .node hown hinputs
  · cases b with
    | true =>
        obtain rfl : children = [node'] := hb
        exact hinputs node' List.mem_cons_self
    | false =>
        obtain rfl : node' = .values [] [] := hb
        exact .node hempty (List.forall_mem_nil _)

/-- Filter removal keeps what only reads, and what the rules refine. -/
theorem removeConstantFilters_reads {plan plan' : LogicalPlan} (h : plan.Reads)
    (hplan : removeConstantFilters plan = .ok plan') : plan'.Reads := by
  refine h.rewrite removeConstantFilters_eq (fun hreads _ hinputs hremove => ?_) hplan
  refine removeNode_everywhere ((LogicalPlan.isWriter_withChildren _ _).trans hreads) rfl ?_ hremove
  rw [LogicalPlan.children_withChildren]
  exact hinputs

theorem removeConstantFilters_rewritable {plan plan' : LogicalPlan}
    (h : plan.Everywhere LogicalPlan.Rewritable)
    (hplan : removeConstantFilters plan = .ok plan') :
    plan'.Everywhere LogicalPlan.Rewritable := by
  refine h.rewrite removeConstantFilters_eq (fun hnode hchildren hinputs hremove => ?_) hplan
  have hover := hnode.withChildren
    (hchildren.imp fun _ _ hok hreads => removeConstantFilters_reads hreads hok)
  refine removeNode_everywhere hover
    ⟨List.forall_mem_nil _, fun _ _ heq => by cases heq⟩ ?_ hremove
  rw [LogicalPlan.children_withChildren]
  exact hinputs

theorem removeConstantFilters_refines {plan plan' : LogicalPlan}
    (h : plan.Everywhere LogicalPlan.Rewritable)
    (hplan : removeConstantFilters plan = .ok plan') : plan.RefinedBy plan' := by
  refine .of_step removeConstantFilters_eq (fun hnode hchildren hremove => ?_) h hplan
  have hover := hnode.withChildren
    (hchildren.imp fun _ _ hok hreads => removeConstantFilters_reads hreads hok)
  exact removeNode_refines hover.reads hremove

/-! ## Added rules -/

/-- A rule behind `OptimizerRule`: it fails, or succeeds with a plan or, wrongly,
    without one. -/
structure AddedRule where
  name : Bytes
  apply : LogicalPlan → Result (Option LogicalPlan)

def OptimizerRule.added (rule : OptimizerRule) : AddedRule :=
  ⟨rule.name, fun plan => some <$> rule.apply plan⟩

/-- `has_rule_named`. -/
def hasRuleNamed (rules : List AddedRule) (name : Bytes) : Bool :=
  rules.any fun rule => rule.name = name

/-- `DefaultOptimizer::AddRule`; a null pointer is `none`. -/
def addRule (rules : List AddedRule) : Option AddedRule → Result Unit × List AddedRule
  | none => (errorResult .invalidArgument (ascii "optimizer rule is required"), rules)
  | some rule =>
    if rule.name = [] then
      (errorResult .invalidArgument (ascii "optimizer rule name is required"), rules)
    else if hasRuleNamed rules rule.name then
      (errorResult .alreadyExists (ascii "optimizer rule already exists"), rules)
    else (.ok (), rules ++ [rule])

/-- `DefaultOptimizer::Optimize` with the rules. -/
def optimizeWith : List AddedRule → LogicalPlan → Result LogicalPlan
  | [], plan => .ok plan
  | rule :: rules, plan =>
    match rule.apply plan with
    | .error st => .error st
    | .ok none =>
      errorResult .internal
        (ascii "optimizer rule returned success without a logical plan: " ++ rule.name)
    | .ok (some plan) => optimizeWith rules plan

/-- The rules of an optimizer after the listed calls of `AddRule`. -/
def rulesAfter (calls : List (Option AddedRule)) : List AddedRule :=
  Run.final addRule (defaultRules.map OptimizerRule.added) calls

/-- A rule that keeps to the plans that can be rewritten, and refines them. -/
def AddedRule.Refines (rule : AddedRule) : Prop :=
  ∀ plan plan', plan.Everywhere LogicalPlan.Rewritable → rule.apply plan = .ok (some plan') →
    plan'.Everywhere LogicalPlan.Rewritable ∧ plan.RefinedBy plan'

theorem OptimizerRule.added_refines {rule : OptimizerRule}
    (h : ∀ plan plan', plan.Everywhere LogicalPlan.Rewritable → rule.apply plan = .ok plan' →
      plan'.Everywhere LogicalPlan.Rewritable ∧ plan.RefinedBy plan') : rule.added.Refines := by
  intro plan plan' hplan hok
  have hok : some <$> rule.apply plan = .ok (some plan') := hok
  cases happly : rule.apply plan with
  | error st =>
      rw [happly] at hok
      cases hok
  | ok out =>
      rw [happly] at hok
      cases hok
      exact h plan plan' hplan happly

theorem defaultRules_refine : ∀ rule ∈ defaultRules.map OptimizerRule.added, rule.Refines := by
  refine List.forall_mem_cons.mpr ⟨?_, List.forall_mem_singleton.mpr ?_⟩
  · exact OptimizerRule.added_refines fun _ _ h hok =>
      ⟨foldPlan_rewritable h hok, foldPlan_refines h hok⟩
  · exact OptimizerRule.added_refines fun _ _ h hok =>
      ⟨removeConstantFilters_rewritable h hok, removeConstantFilters_refines h hok⟩

/-- Rules that refine, one after the other. -/
theorem optimizeWith_refines {rules : List AddedRule} (hrules : ∀ rule ∈ rules, rule.Refines)
    (plan : LogicalPlan) {optimized : LogicalPlan} (h : plan.Everywhere LogicalPlan.Rewritable)
    (hoptimized : optimizeWith rules plan = .ok optimized) : plan.RefinedBy optimized := by
  induction rules generalizing plan with
  | nil =>
      cases hoptimized
      exact .refl _
  | cons rule rules ih =>
      obtain ⟨hrule, hrest⟩ := List.forall_mem_cons.mp hrules
      rw [optimizeWith] at hoptimized
      rcases happly : rule.apply plan with st | ⟨_ | plan'⟩
      · rw [happly] at hoptimized
        cases hoptimized
      · rw [happly] at hoptimized
        cases hoptimized
      · rw [happly] at hoptimized
        obtain ⟨hplan', hrefined⟩ := hrule plan plan' h happly
        exact hrefined.trans (ih hrest plan' hplan' hoptimized)

/-- Rules that `AddRule` may have added, with a property: they have names, no
    two have the same. -/
structure RulesWith (P : AddedRule → Prop) (rules : List AddedRule) : Prop where
  nodup : (rules.map (·.name)).Nodup
  named : ∀ rule ∈ rules, rule.name ≠ []
  all : ∀ rule ∈ rules, P rule

theorem RulesWith.addRule {P : AddedRule → Prop} {rules : List AddedRule} (h : RulesWith P rules)
    {added : Option AddedRule} (hadded : ∀ rule, added = some rule → P rule) :
    RulesWith P (MattSql.addRule rules added).2 := by
  cases added with
  | none => exact h
  | some rule =>
      rw [MattSql.addRule]
      by_cases hname : rule.name = []
      · rw [if_pos hname]
        exact h
      · by_cases hknown : hasRuleNamed rules rule.name = true
        · rw [if_neg hname, if_pos hknown]
          exact h
        · rw [if_neg hname, if_neg hknown]
          refine ⟨?_, List.forall_mem_append.mpr ⟨h.named, List.forall_mem_singleton.mpr hname⟩,
            List.forall_mem_append.mpr ⟨h.all, List.forall_mem_singleton.mpr (hadded rule rfl)⟩⟩
          have hnew : rule.name ∉ rules.map (·.name) := by
            intro hmem
            obtain ⟨other, hother, hsame⟩ := List.mem_map.mp hmem
            exact hknown (List.any_eq_true.mpr ⟨other, hother, decide_eq_true hsame⟩)
          rw [List.map_append, List.nodup_append_comm]
          exact List.nodup_cons.mpr ⟨hnew, h.nodup⟩

theorem rulesAfter_with {P : AddedRule → Prop} (calls : List (Option AddedRule))
    (hdefault : ∀ rule ∈ defaultRules.map OptimizerRule.added, P rule)
    (hcalls : ∀ rule, some rule ∈ calls → P rule) : RulesWith P (rulesAfter calls) := by
  have hrun : ∀ (calls : List (Option AddedRule)) (rules : List AddedRule),
      (∀ rule, some rule ∈ calls → P rule) → RulesWith P rules →
      RulesWith P (Run.final addRule rules calls) := by
    intro calls
    induction calls with
    | nil => exact fun _ _ h => h
    | cons call calls ih =>
        intro rules hcalls h
        refine ih _ (fun rule hrule => hcalls rule (List.mem_cons_of_mem _ hrule)) ?_
        exact h.addRule fun rule hcall => hcalls rule (hcall ▸ List.mem_cons_self)
  exact hrun calls _ hcalls ⟨by decide, by decide, hdefault⟩

theorem optimizeWith_default (plan : LogicalPlan) :
    optimizeWith (defaultRules.map OptimizerRule.added) plan = optimize plan := by
  have hadded : ∀ (rules : List OptimizerRule) (plan : LogicalPlan),
      optimizeWith (rules.map OptimizerRule.added) plan = applyRules rules plan := by
    intro rules
    induction rules with
    | nil => exact fun _ => rfl
    | cons rule rules ih =>
        intro plan
        rw [List.map_cons, optimizeWith, applyRules, OptimizerRule.added]
        dsimp only
        cases rule.apply plan with
        | error st => rfl
        | ok plan' => exact ih plan'
  exact hadded defaultRules plan

/-- What is planned can be optimized. -/
theorem Plans.nodeOver {plan : LogicalPlan} {planned : PhysicalPlan} (h : Plans plan planned) :
    plan.Everywhere (LogicalPlan.NodeOver BoundExpression.StarFree) := by
  have hleaf : ∀ {node : LogicalPlan}, node.isFilter = false → ∀ children predicate,
      node = .filter children predicate → children.length = 1 := by
    rintro node hkind children predicate rfl
    cases hkind
  induction h with
  | createTable => exact .node ⟨List.forall_mem_nil _, hleaf rfl⟩ (List.forall_mem_nil _)
  | insert _ _ ih =>
      exact .node ⟨List.forall_mem_nil _, hleaf rfl⟩ (List.forall_mem_singleton.mpr ih)
  | projection _ _ hfree _ ih => exact .node ⟨hfree, hleaf rfl⟩ (List.forall_mem_singleton.mpr ih)
  | filter _ hfree _ ih =>
      refine .node ⟨List.forall_mem_singleton.mpr hfree, fun _ _ heq => ?_⟩
        (List.forall_mem_singleton.mpr ih)
      cases heq
      rfl
  | values hfree =>
      refine .node ⟨fun e he => ?_, hleaf rfl⟩ (List.forall_mem_nil _)
      obtain ⟨row, hrow, he⟩ := List.mem_flatten.mp he
      exact hfree row hrow e he
  | seqScan => exact .node ⟨List.forall_mem_nil _, hleaf rfl⟩ (List.forall_mem_nil _)

theorem Plans.optimize_ok {plan : LogicalPlan} {planned : PhysicalPlan} (h : Plans plan planned) :
    ∃ optimized, optimize plan = .ok optimized := by
  obtain ⟨folded, hfold, hfolded⟩ := foldPlan_spec h.nodeOver
  obtain ⟨optimized, hremove, -⟩ := removeConstantFilters_spec hfolded
  exact ⟨optimized, by rw [optimize_eq hfold, hremove]⟩

/-- **THE OPTIMIZER REFINES EVERY PLAN.**  Take a plan of any shape that the
    physical planner accepts, with the operators' types and nothing that writes
    below a filter, and an optimizer with any rules added that refine such plans.
    Rule names stay unique.  What comes out is planned too, and in every database
    and transaction it answers when the plan does, with the same rows and the
    same effect; the columns are the same unless the plan is a filter that keeps
    no row.  Without added rules the optimizer succeeds. -/
theorem optimizer_refines_every_plan (calls : List (Option AddedRule))
    (hcalls : ∀ rule, some rule ∈ calls → rule.Refines) (plan : LogicalPlan)
    (hplan : plan.Everywhere LogicalPlan.Rewritable) {planned : PhysicalPlan}
    (hplanned : planPhysical plan = .ok planned) :
    ((rulesAfter calls).map (·.name)).Nodup
      ∧ (calls = [] → ∃ optimized, optimizeWith (rulesAfter calls) plan = .ok optimized)
      ∧ ∀ optimized, optimizeWith (rulesAfter calls) plan = .ok optimized →
        ∃ planned', planPhysical optimized = .ok planned' ∧
          ∀ transaction db result, (executePhysical planned transaction db).1 = .ok result →
            ∃ result', executePhysical planned' transaction db
                = (.ok result', (executePhysical planned transaction db).2)
              ∧ result'.rows = result.rows
              ∧ (result'.columns = result.columns ∨ plan.isFilter = true ∧ result.rows = []) := by
  have hrules := rulesAfter_with calls defaultRules_refine hcalls
  refine ⟨hrules.nodup, ?_, fun optimized hoptimized => ?_⟩
  · rintro rfl
    obtain ⟨optimized, hoptimized⟩ := (planPhysical_iff.mp hplanned).optimize_ok
    exact ⟨optimized, (optimizeWith_default plan).trans hoptimized⟩
  · obtain ⟨planned', hplanned', hanswers⟩ :=
      (optimizeWith_refines hrules.all plan hplan hoptimized).plans planned
        (planPhysical_iff.mp hplanned)
    refine ⟨planned', planPhysical_iff.mpr hplanned', fun transaction db result hresult => ?_⟩
    rw [executePhysical] at hresult ⊢
    rw [executePhysical]
    cases hactive : requireActive transaction with
    | error st =>
        rw [hactive] at hresult
        cases hresult
    | ok =>
        rw [hactive] at hresult
        dsimp only at hresult ⊢
        rcases hrun : executePlan transaction planned db with ⟨st | answer, db'⟩
        · rw [hrun] at hresult
          cases hresult
        · rw [hrun] at hresult
          cases hresult
          obtain ⟨answer', hrun', hagrees⟩ := hanswers transaction db answer db' hrun
          rw [hrun']
          refine ⟨_, rfl, hagrees.rows_eq, ?_⟩
          rcases hagrees with rfl | ⟨hfilter, hnil, -⟩
          · exact .inl rfl
          · exact .inr ⟨hfilter, hnil⟩

/-- Constant folding once more, behind the other rules. -/
def foldAgain : AddedRule := OptimizerRule.added ⟨ascii "constant_folding_again", foldPlan⟩

theorem foldAgain_refines : foldAgain.Refines :=
  OptimizerRule.added_refines fun _ _ h hok => ⟨foldPlan_rewritable h hok, foldPlan_refines h hok⟩

/-- A projection of two filters, one of them FALSE, over one empty row, with a
    rule added. -/
theorem optimizer_refines_every_plan_two_filters :
    let plan : LogicalPlan := .projection [.filter [.filter [.values [] [[]]]
        (.binary .boolean (.literal .integer (.integer 1)) .equal
          (.literal .integer (.integer 1)))]
        (.unary .boolean .not (.literal .boolean (.boolean true)))]
      [.literal .integer (.integer 7)] []
    ∃ planned optimized planned', planPhysical plan = .ok planned
      ∧ (rulesAfter [none, some foldAgain]).length = 3
      ∧ optimizeWith (rulesAfter [none, some foldAgain]) plan = .ok optimized
      ∧ planPhysical optimized = .ok planned'
      ∧ (executePhysical planned' {} {}).1 = .ok ⟨[ascii "expr1"], []⟩ := by
  intro plan
  have hplan : plan.Everywhere LogicalPlan.Rewritable := by
    have hnone : ∀ {node : LogicalPlan}, node.isFilter = false → ∀ children predicate,
        node = .filter children predicate → ∀ child ∈ children, child.Reads := by
      rintro node hkind children predicate rfl
      cases hkind
    have hvalues : LogicalPlan.Reads (.values [] [[]]) := .node rfl (List.forall_mem_nil _)
    refine .node ⟨List.forall_mem_singleton.mpr trivial, hnone rfl⟩
      (List.forall_mem_singleton.mpr ?_)
    refine .node ⟨List.forall_mem_singleton.mpr rfl, fun _ _ heq => ?_⟩
      (List.forall_mem_singleton.mpr ?_)
    · cases heq
      exact List.forall_mem_singleton.mpr (.node rfl (List.forall_mem_singleton.mpr hvalues))
    · refine .node ⟨List.forall_mem_singleton.mpr rfl, fun _ _ heq => ?_⟩
        (List.forall_mem_singleton.mpr ?_)
      · cases heq
        exact List.forall_mem_singleton.mpr hvalues
      · exact .node ⟨List.forall_mem_nil _, hnone rfl⟩ (List.forall_mem_nil _)
  have hadded : ∀ rule, some rule ∈ [none, some foldAgain] → rule.Refines := by
    intro rule hrule
    rcases List.mem_cons.mp hrule with hnone | hrule
    · cases hnone
    · cases List.mem_singleton.mp hrule
      exact foldAgain_refines
  obtain ⟨-, -, hrefines⟩ :=
    @optimizer_refines_every_plan [none, some foldAgain] hadded plan hplan _ rfl
  obtain ⟨planned', hplanned', hanswers⟩ := hrefines _ rfl
  obtain ⟨result, hrun, hrows, hcolumns⟩ := hanswers {} {} ⟨[ascii "expr1"], []⟩ rfl
  refine ⟨_, _, planned', rfl, rfl, rfl, hplanned', ?_⟩
  obtain ⟨columns, rows⟩ := result
  obtain rfl : rows = [] := hrows
  rcases hcolumns with hsame | ⟨hfilter, -⟩
  · obtain rfl : columns = [ascii "expr1"] := hsame
    rw [hrun]
  · cases hfilter

end MattSql
