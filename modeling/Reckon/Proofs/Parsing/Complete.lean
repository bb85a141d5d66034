import Reckon.Proofs.Parsing.Outcome

/-!
# Complete trees

A tree is complete if no mandatory part of it is missing. Parts that a construct may do without are
the step of a range, the `else` of a conditional, the key of a loop, the value of a `return` and of a
`let`. A loop without a value variable has a source that says what is wrong with it.

Besides, an assignment has a target that can be assigned to, a row of a matrix has a cell, the `else`
of a conditional is another conditional or a block, and a tag is a name or a path of a component.
-/

namespace Reckon

/-- Whether an expression is the path of a component. -/
def Expr.isComponent : Expr → Bool
  | .var _ => true
  | .member _ owner _ => owner.isComponent
  | _ => false

/-- Whether an expression is the tag of an element. -/
def Expr.isTag : Expr → Bool
  | .identifier _ => true
  | tag => tag.isComponent

/-- Whether a statement may stand after `else`. -/
def Stmt.isAlternative : Stmt → Bool
  | .block _ | .ifThen .. => true
  | _ => false

mutual

/-- Every mandatory part of an expression is there. -/
inductive Expr.Complete : Expr → Prop
  | empty (span : Span) : (Expr.empty span).Complete
  | invalid (span : Span) (defect : Defect) : (Expr.invalid span defect).Complete
  | constant (span : Span) (value : Literal) : (Expr.constant span value).Complete
  | var (name : Variable) : (Expr.var name).Complete
  | identifier (name : Identifier) : (Expr.identifier name).Complete
  | binary {span : Span} {op : BinaryOp} {left right : Expr} {implicit : Bool} :
      left.Complete → right.Complete → (Expr.binary span op left right implicit).Complete
  | unary {span : Span} {op : UnaryOp} {operand : Expr} :
      operand.Complete → (Expr.unary span op operand).Complete
  | factorial {span : Span} {operand : Expr} :
      operand.Complete → (Expr.factorial span operand).Complete
  | range {span : Span} {first : Expr} {step : Option Expr} {last : Expr} :
      first.Complete → (∀ middle ∈ step, middle.Complete) → last.Complete →
        (Expr.range span first step last).Complete
  | conditional {span : Span} {test whenTrue whenFalse : Expr} :
      test.Complete → whenTrue.Complete → whenFalse.Complete →
        (Expr.conditional span test whenTrue whenFalse).Complete
  | call {span : Span} {callee : Expr} {args : List Expr} :
      callee.Complete → (∀ arg ∈ args, arg.Complete) → (Expr.call span callee args).Complete
  | arguments {span : Span} {items : List Expr} :
      (∀ item ∈ items, item.Complete) → (Expr.arguments span items).Complete
  | matrix {span : Span} {rows : List (List Expr)} :
      (∀ row ∈ rows, row ≠ []) → (∀ row ∈ rows, ∀ cell ∈ row, cell.Complete) →
        (Expr.matrix span rows).Complete
  | object {span : Span} {entries : List Entry} :
      (∀ entry ∈ entries, entry.Complete) → (Expr.object span entries).Complete
  | function {span : Span} {frame : FrameId} {params : List Variable} {body : Body} :
      body.Complete → (Expr.function span frame params body).Complete
  | member {span : Span} {owner : Expr} {selector : Identifier} :
      owner.Complete → (Expr.member span owner selector).Complete
  | assignment {span : Span} {target value : Expr} :
      target.isAssignable → target.Complete → value.Complete →
        (Expr.assignment span target value).Complete
  | interpolated {span : Span} {parts : List String} {replacements : List Expr} :
      (∀ replacement ∈ replacements, replacement.Complete) →
        (Expr.interpolated span parts replacements).Complete
  | markup {span : Span} {tag : Expr} {attributes : List Entry} {children : List Expr} :
      tag.isTag → tag.Complete → (∀ entry ∈ attributes, entry.Complete) →
        (∀ child ∈ children, child.Complete) →
          (Expr.markup span tag attributes children).Complete

/-- Every mandatory part of an entry is there. -/
inductive Entry.Complete : Entry → Prop
  | property {span : Span} {key : String} {value : Expr} :
      value.Complete → (Entry.property span key value).Complete
  | invalid (span : Span) (defect : Defect) : (Entry.invalid span defect).Complete

/-- Every mandatory part of the body of a function is there. -/
inductive Body.Complete : Body → Prop
  | expr {value : Expr} : value.Complete → (Body.expr value).Complete
  | block {statements : Block} : statements.Complete → (Body.block statements).Complete

/-- Every mandatory part of a block is there. -/
inductive Block.Complete : Block → Prop
  | mk {span : Span} {statements : List Stmt} :
      (∀ statement ∈ statements, statement.Complete) → (Block.mk span statements).Complete

/-- Every mandatory part of a statement is there. -/
inductive Stmt.Complete : Stmt → Prop
  | expr {value : Expr} : value.Complete → (Stmt.expr value).Complete
  | block {body : Block} : body.Complete → (Stmt.block body).Complete
  | ifThen {span : Span} {test : Expr} {whenTrue : Block} {whenFalse : Option Stmt} :
      test.Complete → whenTrue.Complete →
        (∀ other ∈ whenFalse, other.isAlternative) → (∀ other ∈ whenFalse, other.Complete) →
          (Stmt.ifThen span test whenTrue whenFalse).Complete
  | whileDo {span : Span} {test : Expr} {body : Block} :
      test.Complete → body.Complete → (Stmt.whileDo span test body).Complete
  | forIn {span : Span} {key value : Option Variable} {source : Expr} {body : Block} :
      (value = none → ∃ place, source = .invalid place .identifierExpected) →
        source.Complete → body.Complete → (Stmt.forIn span key value source body).Complete
  | returnValue {span : Span} {result : Option Expr} :
      (∀ value ∈ result, value.Complete) → (Stmt.returnValue span result).Complete
  | jump (span : Span) (kind : Jump) : (Stmt.jump span kind).Complete
  | letIn {span : Span} {name : Variable} {value : Option Expr} :
      (∀ initial ∈ value, initial.Complete) → (Stmt.letIn span name value).Complete

end

namespace Expr

theorem Complete.join {op : BinaryOp} {left right : Expr}
    (leftComplete : left.Complete) (rightComplete : right.Complete) :
    (join op left right).Complete :=
  .binary leftComplete rightComplete

theorem Complete.juxtapose {left right : Expr}
    (leftComplete : left.Complete) (rightComplete : right.Complete) :
    (juxtapose left right).Complete :=
  .binary leftComplete rightComplete

theorem Complete.assign {target value : Expr}
    (targetComplete : target.Complete) (valueComplete : value.Complete) :
    (assign target value).Complete := by
  unfold Expr.assign
  split
  · next assignable => exact .assignment assignable targetComplete valueComplete
  · exact .invalid _ _

theorem Complete.powerChain {base : Expr} {exponents : List Expr} (baseComplete : base.Complete)
    (exponentsComplete : ∀ exponent ∈ exponents, exponent.Complete) :
    (powerChain base exponents).Complete := by
  induction exponents generalizing base with
  | nil => exact baseComplete
  | cons next rest inductionHypothesis =>
      refine .join baseComplete (inductionHypothesis (exponentsComplete next (by simp)) ?_)
      intro exponent member
      exact exponentsComplete exponent (List.mem_cons_of_mem next member)

@[simp] theorem isEmpty_join (op : BinaryOp) (left right : Expr) :
    (join op left right).isEmpty = false := rfl

@[simp] theorem isEmpty_juxtapose (left right : Expr) :
    (juxtapose left right).isEmpty = false := rfl

@[simp] theorem isEmpty_assign (target value : Expr) : (assign target value).isEmpty = false := by
  unfold assign
  split <;> rfl

@[simp] theorem isEmpty_powerChain_cons (base next : Expr) (rest : List Expr) :
    (powerChain base (next :: rest)).isEmpty = false := rfl

theorem Complete.of_isComponent {tag : Expr} (component : tag.isComponent) : tag.Complete := by
  induction tag using isComponent.induct with
  | case1 name => exact .var name
  | case2 span owner selector inductionHypothesis =>
      exact .member (inductionHypothesis component)
  | case3 tag notVar notMember =>
      rw [isComponent.eq_3 tag notVar notMember] at component
      exact absurd component (by simp)

theorem isTag_of_isComponent {tag : Expr} (component : tag.isComponent) : tag.isTag := by
  cases tag with
  | var name => rfl
  | member span owner selector => exact component
  | _ => simp [isComponent] at component

end Expr

end Reckon
