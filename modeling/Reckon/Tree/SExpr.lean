import Reckon.Tree.Basic

/-!
# Trees as bracketed prefixes

A compact form of a tree: each construct is a list in parentheses that starts with its head, as in
`(^ 1 (^ 2 3))`. A missing operand is `_`, and a malformed construct is its name after a bang.
-/

namespace Reckon

/-- A head and the forms after it. -/
def bracketed (head : String) (forms : List String) : String :=
  "(" ++ " ".intercalate (head :: forms) ++ ")"

/-- The form of a malformed construct. -/
def Defect.sexpr (defect : Defect) : String :=
  "!" ++ defect.name

mutual

/-- The form of an expression. -/
def Expr.sexpr : Expr → String
  | .empty _ => "_"
  | .invalid _ defect => defect.sexpr
  | .constant _ value => value.render
  | .var name => name.name
  | .identifier name => Text.quote name.name
  | .binary _ op left right _ => bracketed op.symbol [left.sexpr, right.sexpr]
  | .unary _ op operand => bracketed op.symbol [operand.sexpr]
  | .factorial _ operand => bracketed "post!" [operand.sexpr]
  | .range _ first none last => bracketed ".." [first.sexpr, last.sexpr]
  | .range _ first (some step) last => bracketed ".." [first.sexpr, step.sexpr, last.sexpr]
  | .conditional _ test whenTrue whenFalse =>
      bracketed "?" [test.sexpr, whenTrue.sexpr, whenFalse.sexpr]
  | .call _ callee args => bracketed "call" (callee.sexpr :: Expr.sexprs args)
  | .arguments _ items => bracketed "args" (Expr.sexprs items)
  | .matrix _ rows => bracketed "matrix" (Expr.rowSexprs rows)
  | .object _ entries => bracketed "object" (Entry.sexprs entries)
  | .function _ _ params body =>
      bracketed "=>" [bracketed "args" (params.map Variable.name), body.sexpr]
  | .member _ owner selector => bracketed "." [owner.sexpr, Text.quote selector.name]
  | .assignment _ target value => bracketed "=" [target.sexpr, value.sexpr]
  | .interpolated _ parts replacements =>
      bracketed ("template " ++ Text.quoteAll parts) (Expr.sexprs replacements)
  | .markup _ tag attributes children =>
      bracketed "jsx" (tag.sexpr :: (Entry.sexprs attributes ++ Expr.sexprs children))

/-- The forms of a list of expressions. -/
def Expr.sexprs : List Expr → List String
  | [] => []
  | first :: rest => first.sexpr :: Expr.sexprs rest

/-- The forms of the rows of a matrix. -/
def Expr.rowSexprs : List (List Expr) → List String
  | [] => []
  | row :: rest => bracketed "args" (Expr.sexprs row) :: Expr.rowSexprs rest

/-- The form of an entry. -/
def Entry.sexpr : Entry → String
  | .property _ key value => bracketed (key ++ ":") [value.sexpr]
  | .invalid _ defect => defect.sexpr

/-- The forms of a list of entries. -/
def Entry.sexprs : List Entry → List String
  | [] => []
  | first :: rest => first.sexpr :: Entry.sexprs rest

/-- The form of a function body. -/
def Body.sexpr : Body → String
  | .expr value => value.sexpr
  | .block statements => statements.sexpr

/-- The form of a block. -/
def Block.sexpr : Block → String
  | .mk _ statements => bracketed "block" (Stmt.sexprs statements)

/-- The form of a statement. -/
def Stmt.sexpr : Stmt → String
  | .expr value => value.sexpr
  | .block body => body.sexpr
  | .ifThen _ test whenTrue none => bracketed "if" [test.sexpr, whenTrue.sexpr]
  | .ifThen _ test whenTrue (some whenFalse) =>
      bracketed "if" [test.sexpr, whenTrue.sexpr, whenFalse.sexpr]
  | .whileDo _ test body => bracketed "while" [test.sexpr, body.sexpr]
  | .forIn _ key value source body =>
      bracketed "for"
        ((key.toList ++ value.toList).map Variable.name ++ [source.sexpr, body.sexpr])
  | .returnValue _ none => bracketed "return" []
  | .returnValue _ (some result) => bracketed "return" [result.sexpr]
  | .jump _ kind => bracketed kind.keyword []
  | .letIn _ name none => bracketed "let" [name.name]
  | .letIn _ name (some value) => bracketed "let" [name.name, value.sexpr]

/-- The forms of a list of statements. -/
def Stmt.sexprs : List Stmt → List String
  | [] => []
  | first :: rest => first.sexpr :: Stmt.sexprs rest

end

end Reckon
