import Reckon.Diagnostic
import Reckon.Scope
import Reckon.Decimal.Notation
import Reckon.Text.Quoted

/-!
# Syntax trees

The tree of a program. Parsing never fails: a malformed construct is an `invalid` leaf, and a
missing operand is an `empty` one. Every construct carries the span of source it was read from.
-/

namespace Reckon

/-- A literal value. -/
inductive Literal where
  | null
  | number (value : Float)
  | string (value : String)
  | boolean (value : Bool)
deriving Inhabited

/-- The operators that stand between two operands. -/
inductive BinaryOp where
  | pipe
  | or
  | and
  | equal
  | notEqual
  | less
  | lessEqual
  | greater
  | greaterEqual
  | add
  | subtract
  | multiply
  | divide
  | remainder
  | power
deriving DecidableEq, Repr, Inhabited

/-- The text of a binary operator. -/
def BinaryOp.symbol : BinaryOp → String
  | pipe => "|>"
  | or => "||"
  | and => "&&"
  | equal => "=="
  | notEqual => "!="
  | less => "<"
  | lessEqual => "<="
  | greater => ">"
  | greaterEqual => ">="
  | add => "+"
  | subtract => "-"
  | multiply => "*"
  | divide => "/"
  | remainder => "%"
  | power => "^"

/-- The operators that stand before their operand. -/
inductive UnaryOp where
  | negate
  | plus
  | not
  | await
deriving DecidableEq, Repr, Inhabited

/-- The text of a unary operator. -/
def UnaryOp.symbol : UnaryOp → String
  | negate => "-"
  | plus => "+"
  | not => "!"
  | await => "await"

/-- The jumps inside a loop. -/
inductive Jump where
  | exitLoop
  | nextRound
deriving DecidableEq, Repr, Inhabited

/-- The keyword of a jump. -/
def Jump.keyword : Jump → String
  | exitLoop => "break"
  | nextRound => "continue"

mutual

/-- An expression. -/
inductive Expr where
  /-- A missing operand. -/
  | empty (span : Span)
  /-- A malformed construct. -/
  | invalid (span : Span) (defect : Defect)
  /-- A literal. -/
  | constant (span : Span) (value : Literal)
  /-- A name that is looked up. -/
  | var (name : Variable)
  /-- A name that stands for itself. -/
  | identifier (name : Identifier)
  /-- `left op right`; a product written without a sign is implicit. -/
  | binary (span : Span) (op : BinaryOp) (left right : Expr) (implicit : Bool)
  /-- `op operand`. -/
  | unary (span : Span) (op : UnaryOp) (operand : Expr)
  /-- `operand!`. -/
  | factorial (span : Span) (operand : Expr)
  /-- `first..last` or `first..step..last`. -/
  | range (span : Span) (first : Expr) (step : Option Expr) (last : Expr)
  /-- `test ? whenTrue : whenFalse`. -/
  | conditional (span : Span) (test whenTrue whenFalse : Expr)
  /-- `callee(args)`. -/
  | call (span : Span) (callee : Expr) (args : List Expr)
  /-- A list in parentheses. With one item it is a grouping. -/
  | arguments (span : Span) (items : List Expr)
  /-- `[a, b; c, d]`. -/
  | matrix (span : Span) (rows : List (List Expr))
  /-- An object literal. -/
  | object (span : Span) (entries : List Entry)
  /-- `params => body`. -/
  | function (span : Span) (frame : FrameId) (params : List Variable) (body : Body)
  /-- `owner.selector`. -/
  | member (span : Span) (owner : Expr) (selector : Identifier)
  /-- `target = value`. -/
  | assignment (span : Span) (target value : Expr)
  /-- A template string; there is one part more than there are replacements. -/
  | interpolated (span : Span) (parts : List String) (replacements : List Expr)
  /-- A markup element. The tag of a component is a variable or a member of one. -/
  | markup (span : Span) (tag : Expr) (attributes : List Entry) (children : List Expr)

/-- An entry of an object literal, or an attribute of an element. -/
inductive Entry where
  /-- `key: value` or `key=value`. -/
  | property (span : Span) (key : String) (value : Expr)
  /-- A malformed entry. -/
  | invalid (span : Span) (defect : Defect)

/-- The body of a function. -/
inductive Body where
  | expr (value : Expr)
  | block (statements : Block)

/-- Statements between braces. -/
inductive Block where
  | mk (span : Span) (statements : List Stmt)

/-- A statement. -/
inductive Stmt where
  /-- An expression. -/
  | expr (value : Expr)
  /-- A block. -/
  | block (body : Block)
  /-- `if`, with an `else` part that is another `if` or a block. -/
  | ifThen (span : Span) (test : Expr) (whenTrue : Block) (whenFalse : Option Stmt)
  /-- `while`. -/
  | whileDo (span : Span) (test : Expr) (body : Block)
  /-- `for value in source` or `for key, value in source`. -/
  | forIn (span : Span) (key value : Option Variable) (source : Expr) (body : Block)
  /-- `return`. -/
  | returnValue (span : Span) (result : Option Expr)
  /-- `break` or `continue`. -/
  | jump (span : Span) (kind : Jump)
  /-- `let`. -/
  | letIn (span : Span) (name : Variable) (value : Option Expr)

end

instance : Inhabited Expr := ⟨.empty {}⟩

instance : Inhabited Stmt := ⟨.expr default⟩

/-- The span of an expression. -/
def Expr.span : Expr → Span
  | empty span | invalid span _ | constant span _ | binary span .. | unary span ..
  | factorial span _ | range span .. | conditional span .. | call span .. | arguments span _ | matrix span _
  | object span _ | function span .. | member span .. | assignment span .. | interpolated span ..
  | markup span .. => span
  | var name => name.span
  | identifier name => name.span

/-- The span of an entry. -/
def Entry.span : Entry → Span
  | property span _ _ | invalid span _ => span

/-- The span of a block. -/
def Block.span : Block → Span
  | mk span _ => span

/-- The statements of a block. -/
def Block.statements : Block → List Stmt
  | mk _ statements => statements

/-- The span of a function body. -/
def Body.span : Body → Span
  | expr value => value.span
  | block statements => statements.span

/-- The span of a statement. -/
def Stmt.span : Stmt → Span
  | expr value => value.span
  | block body => body.span
  | ifThen span .. | whileDo span .. | forIn span .. | returnValue span _ | jump span _
  | letIn span .. => span

/-- Whether an expression may stand to the left of an assignment. -/
def Expr.isAssignable : Expr → Bool
  | var _ | call .. | member .. => true
  | _ => false

/-- Whether an expression is a missing operand. -/
def Expr.isEmpty : Expr → Bool
  | empty _ => true
  | _ => false

/-- Whether an expression is a number literal, perhaps with signs before it. -/
def Expr.isNumber : Expr → Bool
  | constant _ (.number _) => true
  | unary _ .negate operand => operand.isNumber
  | unary _ .plus operand => operand.isNumber
  | _ => false

/-- The dotted path of a markup tag. -/
def Expr.tagPath : Expr → String
  | identifier name => name.name
  | var name => name.name
  | member _ owner selector => owner.tagPath ++ "." ++ selector.name
  | _ => ""

/-! ## The text of literals -/

namespace Literal

/-- The name of the kind of value a literal stands for. -/
def kindName : Literal → String
  | null => "null"
  | number _ => "number"
  | string _ => "string"
  | boolean _ => "boolean"

/-- The text of a literal. -/
def render : Literal → String
  | null => "null"
  | number value => Decimal.render value
  | string value => Text.quote value
  | boolean value => if value then "true" else "false"

end Literal

end Reckon
