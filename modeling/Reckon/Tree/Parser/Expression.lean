import Reckon.Decimal.Reader
import Reckon.Tree.Parser.State

/-!
# Parsing expressions

One parser for each level of precedence, loosest first: assignment, function, conditional, range,
pipe, or, and, equality, comparison, sum, product (also without a sign), power, sign, and operands
with calls, selectors and factorials.
-/

namespace Reckon

namespace Expr

/-- An operator between two expressions; its span reaches from the one to the other. -/
def join (op : BinaryOp) (left right : Expr) : Expr :=
  .binary ⟨left.span.start, right.span.stop⟩ op left right false

/-- A product without a sign. -/
def juxtapose (left right : Expr) : Expr :=
  .binary ⟨left.span.start, right.span.stop⟩ .multiply left right true

/-- An assignment, or an invalid leaf if the target cannot be assigned to. -/
def assign (target value : Expr) : Expr :=
  let span : Span := ⟨target.span.start, value.span.stop⟩
  if target.isAssignable then .assignment span target value
  else .invalid span .invalidAssignment

/-- A chain of powers, grouped from the right. -/
def powerChain : Expr → List Expr → Expr
  | base, [] => base
  | base, next :: rest => join .power base (powerChain next rest)

end Expr

namespace Grammar

open Reckon.Parser

/-! ## Lists and literals -/

/-- One item of a list up to `close`. A missing item counts if a comma follows it. -/
def itemsRound (inner : Grammar) (close : Token) (soFar : List Expr) :
    Parser (Round (List Expr) (List Expr)) := do
  if (← token) = close then return .done soFar
  let item ← inner.expr
  let soFar :=
    if !item.isEmpty || (← token) == .comma then soFar ++ [item] else soFar
  if ← accept .comma then return .again soFar else return .done soFar

/-- Expressions separated by commas up to `close`, which is read. If it is missing, the last item is
an invalid leaf. -/
def items (inner : Grammar) (close : Token) (defect : Defect) : Parser (List Expr) := do
  let found ← loop (inner.itemsRound close) []
  if ← accept close then return found
  else return found ++ [← missing defect]

/-- A literal made of the current lexeme. -/
def literal (value : Literal) : Parser Expr := do
  return .constant (← skipLexeme) value

/-- A number. -/
def number : Parser Expr := do
  match Decimal.readLiteral (← current).lit with
  | some value => literal (.number value)
  | none => bad .invalidSymbol

/-- A name that is looked up. -/
def variableRead : Parser Variable := do
  let lexeme ← current
  let frame ← findFrame lexeme.lit
  return { span := ← skipLexeme, name := lexeme.lit, frame }

/-- A name that stands for itself. -/
def identifierRead : Parser Identifier := do
  let lexeme ← current
  return { span := ← skipLexeme, name := lexeme.lit }

/-- A template string. Each replacement is a stream of its own that shares the scopes. -/
def template (inner : Grammar) : Parser Expr := do
  let lexeme ← current
  let replacements ← lexeme.subs.mapM fun lexemes => do
    let outer ← get
    set (ParseState.start lexemes outer.scope)
    let replacement ← inner.whole
    modify fun state => { outer with scope := state.scope }
    return replacement
  return .interpolated (← skipLexeme) lexeme.parts replacements

/-! ## Brackets -/

/-- The rows of a matrix, with the row that is being read. -/
structure MatrixRows where
  /-- The finished rows. -/
  rows : List (List Expr) := []
  /-- The current row. -/
  row : List Expr := []

/-- End the current row; an empty row does not count. -/
def MatrixRows.endRow (matrix : MatrixRows) : MatrixRows :=
  if matrix.row.isEmpty then matrix else { rows := matrix.rows ++ [matrix.row] }

/-- A matrix at its opening bracket. Semicolons and newlines end rows, commas are passed over. -/
def matrix (inner : Grammar) : Parser Expr := do
  let start := (← current).span.start
  advance
  let rows ← loop (σ := MatrixRows) (β := List (List Expr))
    (fun soFar => do
      match ← token with
      | .rightBracket =>
          advance
          return .done soFar.endRow.rows
      | .eof =>
          let last ← missing .unterminatedMatrix
          return .done ({ soFar with row := soFar.row ++ [last] } : MatrixRows).endRow.rows
      | .semicolon =>
          advance
          return .again soFar.endRow
      | .comma =>
          advance
          return .again soFar
      | _ =>
          let cell ← inner.expr
          let cell ← if cell.isEmpty then bad .unexpectedToken else pure cell
          return .again { soFar with row := soFar.row ++ [cell] })
    {}
  return .matrix (← spanFrom start) rows

/-- An entry of an object at its key. A name alone stands for itself and its value. -/
def property (inner : Grammar) : Parser Entry := do
  let key ← current
  advance
  if ← accept .colon then
    let value ← inner.expr
    return .property (← spanFrom key.span.start) key.lit value
  else if key.token = .name then
    let value : Variable := { span := key.span, name := key.lit, frame := ← findFrame key.lit }
    return .property (← spanFrom key.span.start) key.lit (.var value)
  else
    return .invalid key.span .colonExpected

/-- An object at its opening brace. Commas, semicolons and newlines are passed over. -/
def object (inner : Grammar) : Parser Expr := do
  let start := (← current).span.start
  advance
  let entries ← loop (σ := List Entry) (β := List Entry)
    (fun soFar => do
      match ← token with
      | .rightBrace =>
          advance
          return .done soFar
      | .eof => return .done (soFar ++ [.invalid (← here) .unterminatedObject])
      | .comma | .semicolon =>
          advance
          return .again soFar
      | .name | .string | .number => return .again (soFar ++ [← inner.property])
      | _ => return .again (soFar ++ [.invalid (← skipLexeme) .identifierExpected]))
    []
  return .object (← spanFrom start) entries

/-! ## Operands -/

/-- A literal, a name or a construct in brackets. Before a lexeme that may follow an operand it is a
missing operand, and reads nothing. -/
def operand (inner : Grammar) : Parser Expr := do
  match ← token with
  | .number => number
  | .string => literal (.string (← current).lit)
  | .badString => bad .unterminatedString
  | .template => inner.template
  | .kwTrue => literal (.boolean true)
  | .kwFalse => literal (.boolean false)
  | .kwNull => literal .null
  | .name => return .var (← variableRead)
  | .leftParen =>
      let start := (← current).span.start
      advance
      let list ← inner.items .rightParen .parenExpected
      return .arguments (← spanFrom start) list
  | .leftBracket => inner.matrix
  | .leftBrace => inner.object
  | .less => inner.markup
  | .illegal => bad .invalidSymbol
  | .eof | .rightParen | .rightBracket | .rightBrace | .comma | .semicolon | .colon =>
      return .empty (← here)
  | _ => bad .unexpectedToken

/-- What follows an operand: a call, a selector, a factorial, or its end. A number before a
parenthesis is left alone, because there it is a factor. -/
def postfixRound (inner : Grammar) (owner : Expr) : Parser (Round Expr Expr) := do
  match ← token with
  | .leftParen =>
      if owner.isNumber then return .done owner
      advance
      let args ← inner.items .rightParen .parenExpected
      return .again (.call (← spanFrom owner.span.start) owner args)
  | .dot =>
      advance
      if (← token) = .name then
        let selector ← identifierRead
        return .again (.member ⟨owner.span.start, selector.span.stop⟩ owner selector)
      else
        return .done (Expr.join .multiply owner (← missing .identifierExpected))
  | .bang =>
      advance
      return .again (.factorial (← spanFrom owner.span.start) owner)
  | _ => return .done owner

/-- An operand with the calls, selectors and factorials after it. -/
def postfixed (inner : Grammar) : Parser Expr := do
  loop inner.postfixRound (← inner.operand)

/-- The operator before an operand. -/
def unaryOp? : Token → Option UnaryOp
  | .minus => some .negate
  | .plus => some .plus
  | .bang => some .not
  | .kwAwait => some .await
  | _ => none

/-- An operand with the operators before it. -/
def signed (inner : Grammar) : Parser Expr := do
  match unaryOp? (← token) with
  | some op =>
      let start := (← current).span.start
      advance
      let operand ← inner.unary
      return .unary ⟨start, operand.span.stop⟩ op operand
  | none => inner.postfixed

/-! ## Operators between operands -/

/-- Whether the operator that ends at `stop` is followed directly by an equals sign, which is then
read: `x += y` is short for `x = x + y`. -/
def compound (stop : Position) : Parser Bool := do
  let lexeme ← current
  if lexeme.token = .assign ∧ stop.isAdjacent lexeme.span.start then
    advance
    return true
  else
    return false

/-- What follows an operator: the right side of a compound assignment, or another operand. -/
def operatorRound (inner : Grammar) (op : BinaryOp) (operand : Parser Expr) (left : Expr) :
    Parser (Round Expr Expr) := do
  let stop := (← current).span.stop
  advance
  if ← compound stop then
    let value ← inner.expr
    return .done (Expr.assign left (Expr.join op left value))
  else
    return .again (Expr.join op left (← operand))

/-- What follows a base and some exponents: one more exponent, a compound assignment, or the end of
the chain. -/
def powerRound (inner : Grammar) (base : Expr) (exponents : List Expr) :
    Parser (Round (List Expr) Expr) := do
  if (← token) = .caret then
    let stop := (← current).span.stop
    advance
    if ← compound stop then
      let target := Expr.powerChain base exponents
      let value ← inner.expr
      return .done (Expr.assign target (Expr.join .power target value))
    else
      return .again (exponents ++ [← inner.signed])
  else
    return .done (Expr.powerChain base exponents)

/-- Operands joined by powers. -/
def power (inner : Grammar) : Parser Expr := do
  loop (inner.powerRound (← inner.signed)) []

/-- The signs of products. -/
def productOp? : Token → Option BinaryOp
  | .star => some .multiply
  | .slash => some .divide
  | .percent => some .remainder
  | _ => none

/-- What follows a factor: another one after a sign or side by side, or the end of the product. -/
def productRound (inner : Grammar) (left : Expr) : Parser (Round Expr Expr) := do
  let next ← token
  match productOp? next with
  | some op => inner.operatorRound op inner.power left
  | none =>
      match next with
      | .name | .number | .kwTrue | .kwFalse | .kwNull | .leftBracket | .illegal =>
          return .again (Expr.juxtapose left (← inner.power))
      | .leftParen =>
          if left.isNumber then return .again (Expr.juxtapose left (← inner.power))
          else return .done left
      | _ => return .done left

/-- Factors with signs between them, or side by side. -/
def product (inner : Grammar) : Parser Expr := do
  loop inner.productRound (← inner.power)

/-- The signs of sums. -/
def sumOp? : Token → Option BinaryOp
  | .plus => some .add
  | .minus => some .subtract
  | _ => none

/-- What follows a term: another one after a sign, or the end of the sum. -/
def sumRound (inner : Grammar) (left : Expr) : Parser (Round Expr Expr) := do
  match sumOp? (← token) with
  | some op => inner.operatorRound op inner.product left
  | none => return .done left

/-- Terms with signs between them. -/
def sum (inner : Grammar) : Parser Expr := do
  loop inner.sumRound (← inner.product)

/-- What follows an operand: another one after an operator of the level, or the end of the chain. -/
def chainRound (operator? : Token → Option BinaryOp) (operand : Parser Expr) (left : Expr) :
    Parser (Round Expr Expr) := do
  match operator? (← token) with
  | some op =>
      advance
      return .again (Expr.join op left (← operand))
  | none => return .done left

/-- Operands joined by operators of one level, grouped from the left. -/
def leftChain (operator? : Token → Option BinaryOp) (operand : Parser Expr) : Parser Expr := do
  loop (chainRound operator? operand) (← operand)

/-- The signs of comparisons. -/
def comparisonOp? : Token → Option BinaryOp
  | .less => some .less
  | .lessEqual => some .lessEqual
  | .greater => some .greater
  | .greaterEqual => some .greaterEqual
  | _ => none

/-- The signs of equalities. -/
def equalityOp? : Token → Option BinaryOp
  | .equal => some .equal
  | .notEqual => some .notEqual
  | _ => none

/-- The sign of a conjunction. -/
def conjunctionOp? : Token → Option BinaryOp
  | .andAnd => some .and
  | _ => none

/-- The sign of a disjunction. -/
def disjunctionOp? : Token → Option BinaryOp
  | .orOr => some .or
  | _ => none

/-- The sign of a pipe. -/
def pipeOp? : Token → Option BinaryOp
  | .pipe => some .pipe
  | _ => none

/-- Comparisons of sums. -/
def comparison (inner : Grammar) : Parser Expr :=
  leftChain comparisonOp? inner.sum

/-- Equalities of comparisons. -/
def equality (inner : Grammar) : Parser Expr :=
  leftChain equalityOp? inner.comparison

/-- Conjunctions of equalities. -/
def conjunction (inner : Grammar) : Parser Expr :=
  leftChain conjunctionOp? inner.equality

/-- Disjunctions of conjunctions. -/
def disjunction (inner : Grammar) : Parser Expr :=
  leftChain disjunctionOp? inner.conjunction

/-- Pipes of disjunctions. -/
def pipe (inner : Grammar) : Parser Expr :=
  leftChain pipeOp? inner.disjunction

/-- A range of two or three pipes. -/
def range (inner : Grammar) : Parser Expr := do
  let first ← inner.pipe
  if (← token) = .range then
    advance
    let second ← inner.pipe
    if ← accept .range then
      let last ← inner.pipe
      return .range ⟨first.span.start, last.span.stop⟩ first (some second) last
    else
      return .range ⟨first.span.start, second.span.stop⟩ first none second
  else
    return first

/-- A conditional. -/
def conditional (inner : Grammar) : Parser Expr := do
  let test ← inner.range
  if (← token) = .question then
    advance
    let whenTrue ← inner.lambda
    let whenFalse ← if ← accept .colon then inner.lambda else missing .colonExpected
    return .conditional ⟨test.span.start, whenFalse.span.stop⟩ test whenTrue whenFalse
  else
    return test

/-! ## Functions and assignments -/

/-- The parameter list that an expression before an arrow stands for, if it stands for one. -/
def parameters? : Expr → Option (List Expr)
  | .var name => some [.var name]
  | .arguments _ items => some items
  | _ => none

/-- The names among the items of a parameter list, tagged with the frame of the function. -/
def parameterNames (frame : FrameId) (items : List Expr) : List Variable :=
  items.filterMap fun
    | .var name => some { name with frame := some frame }
    | _ => none

/-- A function, or an expression without an arrow. Every item of a parameter list must be a name. -/
def function (inner : Grammar) : Parser Expr := do
  let head ← inner.conditional
  if (← token) = .arrow then
    match parameters? head with
    | none => return head
    | some items =>
        advance
        let frame ← pushFrame
        let params := parameterNames frame items
        params.forM declare
        let body ←
          if (← token) = .leftBrace then Body.block <$> inner.block else Body.expr <$> inner.expr
        popFrame
        let span : Span := ⟨head.span.start, body.span.stop⟩
        if params.length = items.length then return .function span frame params body
        else return .invalid span .invalidParameter
  else
    return head

/-- A full expression: an assignment, grouped from the right, or a function. -/
def assignment (inner : Grammar) : Parser Expr := do
  let target ← inner.function
  if (← token) = .assign then
    advance
    return Expr.assign target (← inner.expr)
  else
    return target

/-- Pass over semicolons. -/
def skipSemicolons : Parser Unit :=
  loop (σ := Unit) (β := Unit)
    (fun _ => do
      if ← accept .semicolon then return .again () else return .done ())
    ()

/-- All lexemes as one expression. What is left over after a complete expression is joined to it as
invalid factors. -/
def entire (inner : Grammar) : Parser Expr := do
  skipSemicolons
  loop (σ := Expr) (β := Expr)
    (fun soFar => do
      skipSemicolons
      if (← token) = .eof then return .done soFar
      let soFar := Expr.join .multiply soFar (← bad .unexpectedToken)
      let next ← inner.assignment
      return .again (if next.isEmpty then soFar else Expr.join .multiply soFar next))
    (← inner.assignment)

end Grammar

end Reckon
