import Reckon.Text.Json
import Reckon.Tree.Basic

/-!
# Trees as JSON documents

Each construct is an object with its kind, its span and its parts.
-/

namespace Reckon

/-- The document of a construct: its kind, its span and its other members. -/
def Json.node (kind : String) (span : Span) (members : List (String × Json)) : Json :=
  .object
    (("type", .string kind) :: ("pos", .string span.start.render) ::
      ("end", .string span.stop.render) :: members)

/-- The document of a malformed construct. -/
def Defect.json (span : Span) (defect : Defect) : Json :=
  .node "Invalid" span
    [("code", .string defect.name), ("message", .string defect.description)]

/-- The member for a variable that may be missing. -/
def Json.nameMember (key : String) (name : Option Variable) : List (String × Json) :=
  name.toList.map fun name => (key, .string name.name)

mutual

/-- The document of an expression. -/
def Expr.json : Expr → Json
  | .empty span => .node "Empty" span []
  | .invalid span defect => defect.json span
  | .constant span value =>
      .node "Constant" span [("kind", .string value.kindName), ("value", .string value.render)]
  | .var name =>
      .node "Variable" name.span [("name", .string name.name), ("local", .bool name.frame.isSome)]
  | .identifier name => .node "Identifier" name.span [("name", .string name.name)]
  | .binary span op left right implicit =>
      .node "Binary" span
        ([("op", .string op.symbol), ("x", left.json), ("y", right.json)] ++
          if implicit then [("implicit", .bool true)] else [])
  | .unary span op operand =>
      .node "PreUnary" span [("op", .string op.symbol), ("x", operand.json)]
  | .factorial span operand => .node "PostUnary" span [("op", .string "!"), ("x", operand.json)]
  | .range span first none last =>
      .node "Range" span [("from", first.json), ("to", last.json)]
  | .range span first (some step) last =>
      .node "Range" span [("from", first.json), ("step", step.json), ("to", last.json)]
  | .conditional span test whenTrue whenFalse =>
      .node "Conditional" span
        [("test", test.json), ("then", whenTrue.json), ("else", whenFalse.json)]
  | .call span callee args =>
      .node "Call" span [("fun", callee.json), ("args", .array (Expr.jsons args))]
  | .arguments span items => .node "Arguments" span [("list", .array (Expr.jsons items))]
  | .matrix span rows => .node "Matrix" span [("rows", .array (Expr.rowJsons rows))]
  | .object span entries => .node "Object" span [("props", .array (Entry.jsons entries))]
  | .function span _ params body =>
      .node "Function" span
        [("params", .array (params.map fun name => .string name.name)), ("body", body.json)]
  | .member span owner selector =>
      .node "Member" span [("x", owner.json), ("sel", .string selector.name)]
  | .assignment span target value =>
      .node "Assignment" span [("target", target.json), ("value", value.json)]
  | .interpolated span parts replacements =>
      .node "Interpolated" span
        [("format", .array (parts.map .string)),
          ("replacements", .array (Expr.jsons replacements))]
  | .markup span tag attributes children =>
      .node "Jsx" span
        [("tag", tag.json), ("props", .array (Entry.jsons attributes)),
          ("children", .array (Expr.jsons children))]

/-- The documents of a list of expressions. -/
def Expr.jsons : List Expr → List Json
  | [] => []
  | first :: rest => first.json :: Expr.jsons rest

/-- The documents of the rows of a matrix. -/
def Expr.rowJsons : List (List Expr) → List Json
  | [] => []
  | row :: rest => .array (Expr.jsons row) :: Expr.rowJsons rest

/-- The document of an entry. -/
def Entry.json : Entry → Json
  | .property span key value =>
      .node "Property" span [("key", .string key), ("value", value.json)]
  | .invalid span defect => defect.json span

/-- The documents of a list of entries. -/
def Entry.jsons : List Entry → List Json
  | [] => []
  | first :: rest => first.json :: Entry.jsons rest

/-- The document of a function body. -/
def Body.json : Body → Json
  | .expr value => value.json
  | .block statements => statements.json

/-- The document of a block. -/
def Block.json : Block → Json
  | .mk span statements => .node "BlockStmt" span [("stmts", .array (Stmt.jsons statements))]

/-- The document of a statement. -/
def Stmt.json : Stmt → Json
  | .expr value => .node "ExprStmt" value.span [("x", value.json)]
  | .block body => body.json
  | .ifThen span test whenTrue none =>
      .node "IfStmt" span [("cond", test.json), ("then", whenTrue.json)]
  | .ifThen span test whenTrue (some whenFalse) =>
      .node "IfStmt" span
        [("cond", test.json), ("then", whenTrue.json), ("else", whenFalse.json)]
  | .whileDo span test body => .node "WhileStmt" span [("cond", test.json), ("body", body.json)]
  | .forIn span key value source body =>
      .node "ForStmt" span
        (Json.nameMember "key" key ++ Json.nameMember "value" value ++
          [("x", source.json), ("body", body.json)])
  | .returnValue span none => .node "ReturnStmt" span []
  | .returnValue span (some result) => .node "ReturnStmt" span [("result", result.json)]
  | .jump span kind => .node "BranchStmt" span [("token", .string kind.keyword)]
  | .letIn span name none => .node "LetStmt" span [("name", .string name.name)]
  | .letIn span name (some value) =>
      .node "LetStmt" span [("name", .string name.name), ("value", value.json)]

/-- The documents of a list of statements. -/
def Stmt.jsons : List Stmt → List Json
  | [] => []
  | first :: rest => first.json :: Stmt.jsons rest

end

end Reckon
