import Reckon.Tree.Basic

/-!
# Walking a tree

A node is an expression, an entry or a statement. A walk visits a node and then, if the visitor
wants to go on, what the node is made of, in source order.
-/

namespace Reckon

/-- A part of a tree. -/
inductive Node where
  | expr (value : Expr)
  | entry (value : Entry)
  | stmt (value : Stmt)

namespace Node

/-- The span of a node. -/
def span : Node → Span
  | expr value => value.span
  | entry value => value.span
  | stmt value => value.span

/-- The name of the kind of a node. -/
def kind : Node → String
  | expr (.empty _) => "Empty"
  | expr (.invalid ..) => "Invalid"
  | expr (.constant ..) => "Constant"
  | expr (.var _) => "Variable"
  | expr (.identifier _) => "Identifier"
  | expr (.binary ..) => "Binary"
  | expr (.unary ..) => "PreUnary"
  | expr (.factorial ..) => "PostUnary"
  | expr (.range ..) => "Range"
  | expr (.conditional ..) => "Conditional"
  | expr (.call ..) => "Call"
  | expr (.arguments ..) => "Arguments"
  | expr (.matrix ..) => "Matrix"
  | expr (.object ..) => "Object"
  | expr (.function ..) => "Function"
  | expr (.member ..) => "Member"
  | expr (.assignment ..) => "Assignment"
  | expr (.interpolated ..) => "Interpolated"
  | expr (.markup ..) => "Jsx"
  | entry (.property ..) => "Property"
  | entry (.invalid ..) => "Invalid"
  | stmt (.expr _) => "ExprStmt"
  | stmt (.block _) => "BlockStmt"
  | stmt (.ifThen ..) => "IfStmt"
  | stmt (.whileDo ..) => "WhileStmt"
  | stmt (.forIn ..) => "ForStmt"
  | stmt (.returnValue ..) => "ReturnStmt"
  | stmt (.jump ..) => "BranchStmt"
  | stmt (.letIn ..) => "LetStmt"

/-- Whether a node may stand to the left of an assignment. -/
def isAssignable : Node → Bool
  | expr value => value.isAssignable
  | _ => false

/-- The diagnostic of an invalid node. -/
def diagnostic? : Node → Option Diagnostic
  | expr (.invalid span defect) => some ⟨defect, span⟩
  | entry (.invalid span defect) => some ⟨defect, span⟩
  | _ => none

end Node

/-- The nodes of variables, in order. -/
def variableNodes (names : List Variable) : List Node :=
  names.map fun name => .expr (.var name)

/-- A node, and what is below it if the visitor wants to go on. -/
def Node.above (descend : Node → Bool) (node : Node) (below : List Node) : List Node :=
  node :: if descend node then below else []

mutual

/-- The nodes a walk of an expression visits. -/
def Expr.visit (descend : Node → Bool) : Expr → List Node
  | tree@(.binary _ _ left right _) =>
      Node.above descend (.expr tree) (left.visit descend ++ right.visit descend)
  | tree@(.unary _ _ operand) => Node.above descend (.expr tree) (operand.visit descend)
  | tree@(.factorial _ operand) => Node.above descend (.expr tree) (operand.visit descend)
  | tree@(.range _ first none last) =>
      Node.above descend (.expr tree) (first.visit descend ++ last.visit descend)
  | tree@(.range _ first (some step) last) =>
      Node.above descend (.expr tree)
        (first.visit descend ++ step.visit descend ++ last.visit descend)
  | tree@(.conditional _ test whenTrue whenFalse) =>
      Node.above descend (.expr tree)
        (test.visit descend ++ whenTrue.visit descend ++ whenFalse.visit descend)
  | tree@(.call _ callee args) =>
      Node.above descend (.expr tree) (callee.visit descend ++ Expr.visitAll descend args)
  | tree@(.arguments _ items) => Node.above descend (.expr tree) (Expr.visitAll descend items)
  | tree@(.matrix _ rows) => Node.above descend (.expr tree) (Expr.visitRows descend rows)
  | tree@(.object _ entries) => Node.above descend (.expr tree) (Entry.visitAll descend entries)
  | tree@(.function _ _ params body) =>
      Node.above descend (.expr tree) (variableNodes params ++ body.visit descend)
  | tree@(.member _ owner selector) =>
      Node.above descend (.expr tree) (owner.visit descend ++ [.expr (.identifier selector)])
  | tree@(.assignment _ target value) =>
      Node.above descend (.expr tree) (target.visit descend ++ value.visit descend)
  | tree@(.interpolated _ _ replacements) =>
      Node.above descend (.expr tree) (Expr.visitAll descend replacements)
  | tree@(.markup _ tag attributes children) =>
      Node.above descend (.expr tree)
        (tag.visit descend ++ Entry.visitAll descend attributes ++ Expr.visitAll descend children)
  | tree@(.empty _) => [.expr tree]
  | tree@(.invalid ..) => [.expr tree]
  | tree@(.constant ..) => [.expr tree]
  | tree@(.var _) => [.expr tree]
  | tree@(.identifier _) => [.expr tree]

/-- The nodes a walk of a list of expressions visits. -/
def Expr.visitAll (descend : Node → Bool) : List Expr → List Node
  | [] => []
  | first :: rest => first.visit descend ++ Expr.visitAll descend rest

/-- The nodes a walk of the rows of a matrix visits. -/
def Expr.visitRows (descend : Node → Bool) : List (List Expr) → List Node
  | [] => []
  | row :: rest => Expr.visitAll descend row ++ Expr.visitRows descend rest

/-- The nodes a walk of an entry visits. -/
def Entry.visit (descend : Node → Bool) : Entry → List Node
  | entry@(.property _ _ value) => Node.above descend (.entry entry) (value.visit descend)
  | entry@(.invalid ..) => [.entry entry]

/-- The nodes a walk of a list of entries visits. -/
def Entry.visitAll (descend : Node → Bool) : List Entry → List Node
  | [] => []
  | first :: rest => first.visit descend ++ Entry.visitAll descend rest

/-- The nodes a walk of a function body visits. -/
def Body.visit (descend : Node → Bool) : Body → List Node
  | .expr value => value.visit descend
  | .block statements => statements.visit descend

/-- The nodes a walk of a block visits. -/
def Block.visit (descend : Node → Bool) : Block → List Node
  | block@(.mk _ statements) =>
      Node.above descend (.stmt (.block block)) (Stmt.visitAll descend statements)

/-- The nodes a walk of a statement visits. -/
def Stmt.visit (descend : Node → Bool) : Stmt → List Node
  | tree@(.expr value) => Node.above descend (.stmt tree) (value.visit descend)
  | .block body => body.visit descend
  | tree@(.ifThen _ test whenTrue none) =>
      Node.above descend (.stmt tree) (test.visit descend ++ whenTrue.visit descend)
  | tree@(.ifThen _ test whenTrue (some whenFalse)) =>
      Node.above descend (.stmt tree)
        (test.visit descend ++ whenTrue.visit descend ++ whenFalse.visit descend)
  | tree@(.whileDo _ test body) =>
      Node.above descend (.stmt tree) (test.visit descend ++ body.visit descend)
  | tree@(.forIn _ key value source body) =>
      Node.above descend (.stmt tree)
        (variableNodes key.toList ++ variableNodes value.toList ++ source.visit descend ++
          body.visit descend)
  | tree@(.returnValue _ none) => [.stmt tree]
  | tree@(.returnValue _ (some result)) =>
      Node.above descend (.stmt tree) (result.visit descend)
  | tree@(.jump ..) => [.stmt tree]
  | tree@(.letIn _ name none) => Node.above descend (.stmt tree) (variableNodes [name])
  | tree@(.letIn _ name (some value)) =>
      Node.above descend (.stmt tree) (variableNodes [name] ++ value.visit descend)

/-- The nodes a walk of a list of statements visits. -/
def Stmt.visitAll (descend : Node → Bool) : List Stmt → List Node
  | [] => []
  | first :: rest => first.visit descend ++ Stmt.visitAll descend rest

end

/-- The diagnostics of an expression, in source order. -/
def Expr.diagnostics (tree : Expr) : List Diagnostic :=
  (tree.visit fun _ => true).filterMap Node.diagnostic?

/-- The diagnostics of a list of statements, in source order. -/
def Stmt.diagnostics (trees : List Stmt) : List Diagnostic :=
  (Stmt.visitAll (fun _ => true) trees).filterMap Node.diagnostic?

end Reckon
