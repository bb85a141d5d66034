import Reckon.Tree.Basic

/-!
# Trees as indented outlines

One line for each construct, with its place, and the parts below it two blanks further in. Parts
that need a name stand below a line with their name.
-/

namespace Reckon

/-- A line of an outline: how far it is indented, and its text. -/
structure OutlineLine where
  /-- The level, two blanks each. -/
  level : Nat
  /-- The text. -/
  text : String
deriving DecidableEq, Repr

namespace OutlineLine

/-- The line as it is printed. -/
def render (line : OutlineLine) : String :=
  String.ofList (List.replicate (2 * line.level) ' ') ++ line.text ++ "\n"

/-- The lines one level further in. -/
def indent (lines : List OutlineLine) : List OutlineLine :=
  lines.map fun line => { line with level := line.level + 1 }

/-- A line with lines below it. -/
def heading (text : String) (below : List OutlineLine) : List OutlineLine :=
  ⟨0, text⟩ :: indent below

/-- Lines below a label, and nothing at all if there are none. -/
def labelled (label : String) (below : List OutlineLine) : List OutlineLine :=
  if below.isEmpty then [] else heading (label ++ ":") below

/-- The text of an outline. -/
def renderAll (lines : List OutlineLine) : String :=
  String.join (lines.map render)

end OutlineLine

open OutlineLine

/-- The first line of a construct: its name and its place. -/
def outlineHead (name : String) (span : Span) : String :=
  name ++ " " ++ span.start.render

/-- The outline of a malformed construct. -/
def Defect.outline (span : Span) (defect : Defect) : List OutlineLine :=
  [⟨0, outlineHead "Invalid" span ++ " " ++ Text.quote defect.description⟩]

mutual

/-- The outline of an expression. -/
def Expr.outline : Expr → List OutlineLine
  | .empty span => [⟨0, outlineHead "Empty" span⟩]
  | .invalid span defect => defect.outline span
  | .constant span value => [⟨0, outlineHead "Constant" span ++ " " ++ value.render⟩]
  | .var name =>
      [⟨0, outlineHead "Variable" name.span ++ " " ++ name.name ++
        if name.frame.isSome then " (local)" else ""⟩]
  | .identifier name => [⟨0, outlineHead "Identifier" name.span ++ " " ++ Text.quote name.name⟩]
  | .binary span op left right implicit =>
      heading
        (outlineHead "Binary" span ++ " " ++ op.symbol ++ if implicit then " (implicit)" else "")
        (heading "X:" left.outline ++ heading "Y:" right.outline)
  | .unary span op operand =>
      heading (outlineHead "PreUnary" span ++ " " ++ op.symbol) operand.outline
  | .factorial span operand => heading (outlineHead "PostUnary" span ++ " !") operand.outline
  | .range span first none last =>
      heading (outlineHead "Range" span)
        (heading "From:" first.outline ++ heading "To:" last.outline)
  | .range span first (some step) last =>
      heading (outlineHead "Range" span)
        (heading "From:" first.outline ++ heading "Step:" step.outline ++
          heading "To:" last.outline)
  | .conditional span test whenTrue whenFalse =>
      heading (outlineHead "Conditional" span)
        (heading "Test:" test.outline ++ heading "Then:" whenTrue.outline ++
          heading "Else:" whenFalse.outline)
  | .call span callee args =>
      heading (outlineHead "Call" span)
        (heading "Fun:" callee.outline ++ labelled "Args" (Expr.outlines args))
  | .arguments span items => heading (outlineHead "Arguments" span) (Expr.outlines items)
  | .matrix span rows => heading (outlineHead "Matrix" span) (Expr.rowOutlines 0 rows)
  | .object span entries => heading (outlineHead "Object" span) (Entry.outlines entries)
  | .function span _ params body =>
      heading
        (outlineHead "Function" span ++ " (" ++ ", ".intercalate (params.map Variable.name) ++ ")")
        body.outline
  | .member span owner selector =>
      heading (outlineHead "Member" span ++ " " ++ selector.name) owner.outline
  | .assignment span target value =>
      heading (outlineHead "Assignment" span)
        (heading "Target:" target.outline ++ heading "Value:" value.outline)
  | .interpolated span parts replacements =>
      heading (outlineHead "Interpolated" span ++ " " ++ Text.quoteAll parts)
        (Expr.outlines replacements)
  | .markup span tag attributes children =>
      heading (outlineHead "Jsx" span ++ " <" ++ tag.tagPath ++ ">")
        (labelled "Props" (Entry.outlines attributes) ++
          labelled "Children" (Expr.outlines children))

/-- The outlines of a list of expressions. -/
def Expr.outlines : List Expr → List OutlineLine
  | [] => []
  | first :: rest => first.outline ++ Expr.outlines rest

/-- The outlines of the rows of a matrix, numbered from `index`. -/
def Expr.rowOutlines (index : Nat) : List (List Expr) → List OutlineLine
  | [] => []
  | row :: rest =>
      heading ("Row " ++ toString index ++ ":") (Expr.outlines row) ++
        Expr.rowOutlines (index + 1) rest

/-- The outline of an entry. -/
def Entry.outline : Entry → List OutlineLine
  | .property span key value =>
      heading (outlineHead "Property" span ++ " " ++ Text.quote key) value.outline
  | .invalid span defect => defect.outline span

/-- The outlines of a list of entries. -/
def Entry.outlines : List Entry → List OutlineLine
  | [] => []
  | first :: rest => first.outline ++ Entry.outlines rest

/-- The outline of a function body. -/
def Body.outline : Body → List OutlineLine
  | .expr value => value.outline
  | .block statements => statements.outline

/-- The outline of a block. -/
def Block.outline : Block → List OutlineLine
  | .mk span statements => heading (outlineHead "BlockStmt" span) (Stmt.outlines statements)

/-- The outline of a statement. -/
def Stmt.outline : Stmt → List OutlineLine
  | .expr value => heading (outlineHead "ExprStmt" value.span) value.outline
  | .block body => body.outline
  | .ifThen span test whenTrue none =>
      heading (outlineHead "IfStmt" span)
        (heading "Cond:" test.outline ++ heading "Then:" whenTrue.outline)
  | .ifThen span test whenTrue (some whenFalse) =>
      heading (outlineHead "IfStmt" span)
        (heading "Cond:" test.outline ++ heading "Then:" whenTrue.outline ++
          heading "Else:" whenFalse.outline)
  | .whileDo span test body =>
      heading (outlineHead "WhileStmt" span)
        (heading "Cond:" test.outline ++ heading "Body:" body.outline)
  | .forIn span key value source body =>
      heading (outlineHead "ForStmt" span)
        (key.toList.map (fun name => ⟨0, "Key: " ++ name.name⟩) ++
          value.toList.map (fun name => ⟨0, "Value: " ++ name.name⟩) ++
          heading "In:" source.outline ++ heading "Body:" body.outline)
  | .returnValue span none => [⟨0, outlineHead "ReturnStmt" span⟩]
  | .returnValue span (some result) => heading (outlineHead "ReturnStmt" span) result.outline
  | .jump span kind => [⟨0, outlineHead "BranchStmt" span ++ " " ++ kind.keyword⟩]
  | .letIn span name none => [⟨0, outlineHead "LetStmt" span ++ " " ++ name.name⟩]
  | .letIn span name (some value) =>
      heading (outlineHead "LetStmt" span ++ " " ++ name.name) value.outline

/-- The outlines of a list of statements. -/
def Stmt.outlines : List Stmt → List OutlineLine
  | [] => []
  | first :: rest => first.outline ++ Stmt.outlines rest

end

end Reckon
