import Reckon.Tree.Parser.Markup

/-!
# Parsing statements

Statements are separated by semicolons, most of which are newlines. Blocks, conditionals and loops
need none after them.
-/

namespace Reckon.Grammar

open Reckon.Parser

/-- The block of a conditional or a loop. -/
def body (inner : Grammar) : Parser Block := do
  if (← token) = .leftBrace then inner.block
  else
    let span ← here
    return .mk span [.expr (.invalid span .braceExpected)]

/-- Pass over a newline before `else`, where it does not end the statement. -/
def skipToElse : Parser Unit := do
  if (← token) = .semicolon ∧ (← peekToken) = .kwElse then advance

/-- The `else` part of an `if` statement, if there is one. -/
def alternative (inner : Grammar) : Parser (Option Stmt) := do
  skipToElse
  if ← accept .kwElse then
    if (← token) = .kwIf then some <$> inner.ifStatement
    else (some ∘ Stmt.block) <$> inner.body
  else
    return none

/-- An `if` statement at its keyword. -/
def ifThenElse (inner : Grammar) : Parser Stmt := do
  let start := (← current).span.start
  advance
  let test ← inner.assignment
  let whenTrue ← inner.body
  let whenFalse ← inner.alternative
  return .ifThen (← spanFrom start) test whenTrue whenFalse

/-- A `while` statement at its keyword. -/
def whileLoop (inner : Grammar) : Parser Stmt := do
  let start := (← current).span.start
  advance
  let test ← inner.assignment
  let repeated ← inner.body
  return .whileDo (← spanFrom start) test repeated

/-- A name declared in the innermost function. -/
def declaredVariable : Parser Variable := do
  let lexeme ← current
  let name : Variable := { span := lexeme.span, name := lexeme.lit, frame := ← currentFrame }
  declare name
  advance
  return name

/-- Pass over lexemes up to an opening brace, but not past the end of the statement. -/
def skipToBrace : Parser Unit :=
  loop (σ := Unit) (β := Unit)
    (fun _ => do
      match ← token with
      | .leftBrace | .semicolon | .rightBrace | .eof => return .done ()
      | _ =>
          advance
          return .again ())
    ()

/-- The source of a `for` loop after its variables. -/
def loopSource (inner : Grammar) : Parser Expr := do
  if ← accept .kwIn then inner.assignment else missing .keywordExpected

/-- The variables and the source of a `for` loop: the key, the value and the source. -/
def loopHead (inner : Grammar) : Parser (Option Variable × Option Variable × Expr) := do
  if (← token) ≠ .name then return (none, none, ← missing .identifierExpected)
  let first ← declaredVariable
  if ← accept .comma then
    if (← token) = .name then
      let second ← declaredVariable
      return (some first, some second, ← inner.loopSource)
    else
      return (some first, none, ← missing .identifierExpected)
  else
    return (none, some first, ← inner.loopSource)

/-- A `for` statement at its keyword. -/
def forLoop (inner : Grammar) : Parser Stmt := do
  let start := (← current).span.start
  advance
  let (key, value, source) ← inner.loopHead
  skipToBrace
  let repeated ← inner.body
  return .forIn (← spanFrom start) key value source repeated

/-- A `return` statement at its keyword. -/
def returnStatement (inner : Grammar) : Parser Stmt := do
  let start := (← current).span.start
  advance
  let result ←
    match ← token with
    | .semicolon | .rightBrace | .eof => pure none
    | _ => some <$> inner.assignment
  return .returnValue (← spanFrom start) result

/-- A `let` statement at its keyword. -/
def letStatement (inner : Grammar) : Parser Stmt := do
  let start := (← current).span.start
  advance
  if (← token) ≠ .name then return .expr (← missing .identifierExpected)
  else
    let name ← declaredVariable
    let value ← if ← accept .assign then some <$> inner.assignment else pure none
    return .letIn (← spanFrom start) name value

/-- One statement. -/
def statement (inner : Grammar) : Parser Stmt := do
  match ← token with
  | .leftBrace => Stmt.block <$> inner.block
  | .kwIf => inner.ifThenElse
  | .kwWhile => inner.whileLoop
  | .kwFor => inner.forLoop
  | .kwReturn => inner.returnStatement
  | .kwBreak => return .jump (← skipLexeme) .exitLoop
  | .kwContinue => return .jump (← skipLexeme) .nextRound
  | .kwLet => inner.letStatement
  | _ => return .expr (← inner.assignment)

/-- Whether a statement needs a semicolon after it. -/
def needsTerminator : Stmt → Bool
  | .block _ | .ifThen .. | .whileDo .. | .forIn .. => false
  | _ => true

/-- The end of a statement. A closing brace and the end of the source end it and are not read;
anything else is an invalid statement. -/
def terminator : Parser (List Stmt) := do
  match ← token with
  | .semicolon =>
      advance
      return []
  | .eof | .rightBrace => return []
  | _ => return [.expr (← bad .terminatorExpected)]

/-- Statements up to the end of the source, or to a closing brace inside a block. The flag says
whether there was such a brace. -/
def statements (inner : Grammar) (inBlock : Bool) : Parser (List Stmt × Bool) :=
  loop (σ := List Stmt) (β := List Stmt × Bool)
    (fun soFar => do
      match ← token with
      | .semicolon =>
          advance
          return .again soFar
      | .eof => return .done (soFar, false)
      | next =>
          if next = .rightBrace ∧ inBlock then return .done (soFar, true)
          let before ← remaining
          let first ← inner.statement
          let first ←
            if (← remaining) = before then Stmt.expr <$> bad .unexpectedToken else pure first
          let rest ← if needsTerminator first then terminator else pure []
          return .again (soFar ++ first :: rest))
    []

/-- Statements between braces, at the opening brace. -/
def braces (inner : Grammar) : Parser Block := do
  let start := (← current).span.start
  advance
  let (list, closed) ← inner.statements true
  if closed then
    advance
    return .mk (← spanFrom start) list
  else
    let last : Stmt := .expr (← missing .unterminatedBlock)
    return .mk (← spanFrom start) (list ++ [last])

end Reckon.Grammar
