import Reckon.Tree.Node

/-!
# Children

What a node is made of, in source order.  A walk visits a node and then its children, if it goes on.
-/

namespace Reckon

/-- The node of a function body. -/
def Body.root : Body → Node
  | .expr value => .expr value
  | .block statements => .stmt (.block statements)

/-- What a node is made of, in source order. -/
def Node.children : Node → List Node
  | .expr (.binary _ _ left right _) => [.expr left, .expr right]
  | .expr (.unary _ _ operand) => [.expr operand]
  | .expr (.factorial _ operand) => [.expr operand]
  | .expr (.range _ first none last) => [.expr first, .expr last]
  | .expr (.range _ first (some step) last) => [.expr first, .expr step, .expr last]
  | .expr (.conditional _ test whenTrue whenFalse) => [.expr test, .expr whenTrue, .expr whenFalse]
  | .expr (.call _ callee args) => .expr callee :: args.map .expr
  | .expr (.arguments _ items) => items.map .expr
  | .expr (.matrix _ rows) => rows.flatten.map .expr
  | .expr (.object _ entries) => entries.map .entry
  | .expr (.function _ _ params body) => variableNodes params ++ [body.root]
  | .expr (.member _ owner selector) => [.expr owner, .expr (.identifier selector)]
  | .expr (.assignment _ target value) => [.expr target, .expr value]
  | .expr (.interpolated _ _ replacements) => replacements.map .expr
  | .expr (.markup _ tag attributes children) =>
      .expr tag :: (attributes.map .entry ++ children.map .expr)
  | .entry (.property _ _ value) => [.expr value]
  | .stmt (.expr value) => [.expr value]
  | .stmt (.block (.mk _ statements)) => statements.map .stmt
  | .stmt (.ifThen _ test whenTrue none) => [.expr test, .stmt (.block whenTrue)]
  | .stmt (.ifThen _ test whenTrue (some whenFalse)) =>
      [.expr test, .stmt (.block whenTrue), .stmt whenFalse]
  | .stmt (.whileDo _ test body) => [.expr test, .stmt (.block body)]
  | .stmt (.forIn _ key value source body) =>
      variableNodes key.toList ++ variableNodes value.toList ++ [.expr source, .stmt (.block body)]
  | .stmt (.returnValue _ (some result)) => [.expr result]
  | .stmt (.letIn _ name none) => [.expr (.var name)]
  | .stmt (.letIn _ name (some value)) => [.expr (.var name), .expr value]
  | _ => []

/-- The variables that a statement declares. -/
def Node.declared : Node → List Variable
  | .stmt (.letIn _ name _) => [name]
  | .stmt (.forIn _ key value _ _) => key.toList ++ value.toList
  | _ => []

/-- The variables that stand in a node. -/
def Node.occurrences : Node → List Variable
  | .expr (.var name) => [name]
  | node => node.declared

/-- Whether a walk goes on below a node, if it stays within one function. -/
def Node.stays : Node → Bool
  | .expr (.function ..) => false
  | _ => true

/-- The nodes a walk of a node visits. -/
def Node.visit (descend : Node → Bool) : Node → List Node
  | .expr value => value.visit descend
  | .entry value => value.visit descend
  | .stmt value => value.visit descend

section Visit

variable (descend : Node → Bool)

theorem Expr.visitAll_eq_flatMap (trees : List Expr) :
    Expr.visitAll descend trees = (trees.map .expr).flatMap (Node.visit descend) := by
  induction trees with
  | nil => rw [Expr.visitAll]; rfl
  | cons first rest inductionHypothesis =>
      rw [Expr.visitAll, inductionHypothesis]
      rfl

theorem Expr.visitRows_eq_flatMap (rows : List (List Expr)) :
    Expr.visitRows descend rows = (rows.flatten.map .expr).flatMap (Node.visit descend) := by
  induction rows with
  | nil => rw [Expr.visitRows]; rfl
  | cons row rest inductionHypothesis =>
      rw [Expr.visitRows, inductionHypothesis, Expr.visitAll_eq_flatMap, List.flatten_cons,
        List.map_append, List.flatMap_append]

theorem Entry.visitAll_eq_flatMap (entries : List Entry) :
    Entry.visitAll descend entries = (entries.map .entry).flatMap (Node.visit descend) := by
  induction entries with
  | nil => rw [Entry.visitAll]; rfl
  | cons first rest inductionHypothesis =>
      rw [Entry.visitAll, inductionHypothesis]
      rfl

theorem Stmt.visitAll_eq_flatMap (trees : List Stmt) :
    Stmt.visitAll descend trees = (trees.map .stmt).flatMap (Node.visit descend) := by
  induction trees with
  | nil => rw [Stmt.visitAll]; rfl
  | cons first rest inductionHypothesis =>
      rw [Stmt.visitAll, inductionHypothesis]
      rfl

theorem variableNodes_eq_flatMap (names : List Variable) :
    variableNodes names = (variableNodes names).flatMap (Node.visit descend) := by
  induction names with
  | nil => rfl
  | cons first rest inductionHypothesis =>
      rw [variableNodes, List.map_cons, List.flatMap_cons, Node.visit, Expr.visit]
      exact congrArg (_ :: ·) inductionHypothesis

theorem Body.visit_eq_root (body : Body) : body.visit descend = body.root.visit descend := by
  cases body with
  | expr value => rw [Body.visit]; rfl
  | block statements => rw [Body.visit, Body.root, Node.visit, Stmt.visit]

/-- A walk visits a node and then its children. -/
theorem Node.visit_eq (node : Node) :
    node.visit descend = node.above descend (node.children.flatMap (Node.visit descend)) := by
  cases node with
  | expr value =>
      cases value with
      | range span first step last =>
          cases step <;> simp [Node.visit, Expr.visit, children]
      | function span frame params body =>
          rw [children, List.flatMap_append, ← variableNodes_eq_flatMap, Node.visit, Expr.visit,
            Body.visit_eq_root]
          simp
      | _ =>
          simp [Node.visit, Expr.visit, children, Node.above, Expr.visitAll_eq_flatMap,
            Expr.visitRows_eq_flatMap, Entry.visitAll_eq_flatMap]
  | entry value =>
      cases value <;> simp [Node.visit, Entry.visit, children, Node.above]
  | stmt value =>
      cases value with
      | block body =>
          obtain ⟨span, statements⟩ := body
          simp [Node.visit, Stmt.visit, Block.visit, children, Stmt.visitAll_eq_flatMap]
      | ifThen span test whenTrue whenFalse =>
          cases whenFalse <;> simp [Node.visit, Stmt.visit, children]
      | forIn span key value source body =>
          rw [children, List.flatMap_append, List.flatMap_append, ← variableNodes_eq_flatMap,
            ← variableNodes_eq_flatMap, Node.visit, Stmt.visit]
          simp [Node.visit, Stmt.visit]
      | returnValue span result =>
          cases result <;> simp [Node.visit, Stmt.visit, children, Node.above]
      | letIn span name value =>
          cases value <;> simp [Node.visit, Stmt.visit, Expr.visit, children, variableNodes]
      | _ => simp [Node.visit, Stmt.visit, children, Node.above]

end Visit

end Reckon
