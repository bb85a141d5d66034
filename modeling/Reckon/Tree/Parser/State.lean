import Reckon.Lexeme.Basic
import Reckon.Scope
import Reckon.Tree.Basic

/-!
# Parsers

A parser reads lexemes from a cursor and keeps track of scopes. Malformed input never stops it. The
only way to end without a result is to run out of a bound: loops are bounded by the number of
lexemes ahead, because each round but the last reads at least one, and nesting is bounded by the
depth of the grammar.
-/

namespace Reckon

/-- Where a parser stands. -/
structure ParseState where
  /-- The lexemes to read. -/
  cursor : Cursor
  /-- The place just after the last lexeme that was read. -/
  previous : Position
  /-- The frames so far. -/
  scope : Scope

/-- A parser of an `α`. It gives no result only if a bound was too small. -/
abbrev Parser (α : Type) := StateT ParseState Option α

namespace ParseState

/-- The state before the first lexeme of a list. -/
def start (lexemes : List Lexeme) (scope : Scope) : ParseState :=
  let cursor := Cursor.ofLexemes lexemes
  { cursor, previous := cursor.current.span.start, scope }

/-- The state after reading the current lexeme. -/
def advance (state : ParseState) : ParseState :=
  { state with
    cursor := state.cursor.advance
    previous := state.cursor.current.span.stop }

end ParseState

namespace Parser

/-! ## Reading lexemes -/

/-- The current lexeme. -/
def current : Parser Lexeme := do
  return (← get).cursor.current

/-- The class of the current lexeme. -/
def token : Parser Token := do
  return (← current).token

/-- The class of the lexeme after the current one. -/
def peekToken : Parser Token := do
  return (← get).cursor.peek.token

/-- The place just after the last lexeme that was read. -/
def previous : Parser Position := do
  return (← get).previous

/-- The number of lexemes ahead. -/
def remaining : Parser Nat := do
  return (← get).cursor.remaining

/-- Read the current lexeme. -/
def advance : Parser Unit :=
  modify ParseState.advance

/-- Read the current lexeme if it is of the given class, and say whether it was. -/
def accept (expected : Token) : Parser Bool := do
  if (← token) = expected then
    advance
    return true
  else
    return false

/-- The span from a place to the end of the last lexeme that was read. -/
def spanFrom (start : Position) : Parser Span := do
  return ⟨start, ← previous⟩

/-! ## Scopes -/

/-- The innermost frame that declares a name. -/
def findFrame (name : String) : Parser (Option FrameId) := do
  return (← get).scope.find? name

/-- The frame of the innermost function. -/
def currentFrame : Parser (Option FrameId) := do
  return (← get).scope.current

/-- Enter a function. -/
def pushFrame : Parser FrameId :=
  modifyGet fun state =>
    let (id, scope) := state.scope.push
    (id, { state with scope })

/-- Leave a function. -/
def popFrame : Parser Unit :=
  modify fun state => { state with scope := state.scope.pop.2 }

/-- Declare a variable in the innermost function. -/
def declare (declaration : Variable) : Parser Unit :=
  modify fun state => { state with scope := state.scope.declare declaration.name declaration }

/-! ## Malformed input -/

/-- Read the current lexeme, whatever it is, and give its span. -/
def skipLexeme : Parser Span := do
  let span := (← current).span
  advance
  return span

/-- The empty span at the current lexeme. -/
def here : Parser Span := do
  return .point (← current).span.start

/-- An invalid leaf in place of the current lexeme, which is read. -/
def bad (defect : Defect) : Parser Expr := do
  return .invalid (← skipLexeme) defect

/-- An invalid leaf of no width before the current lexeme. -/
def missing (defect : Defect) : Parser Expr := do
  return .invalid (← here) defect

/-! ## Loops -/

/-- What a round of a loop decides. -/
inductive Round (σ β : Type) where
  /-- Go on with a new state. -/
  | again (state : σ)
  /-- Stop with a result. -/
  | done (result : β)

/-- Repeat a round at most `bound` times. -/
def repeatRound {σ β : Type} (round : σ → Parser (Round σ β)) : Nat → σ → Parser β
  | 0, _ => failure
  | bound + 1, state => do
    match ← round state with
    | .again next => repeatRound round bound next
    | .done result => return result

/-- Repeat a round until it stops. A round that goes on has read a lexeme, so there is no more than
one round for each lexeme ahead and a last one. -/
def loop {σ β : Type} (round : σ → Parser (Round σ β)) (state : σ) : Parser β := do
  repeatRound round ((← remaining) + 1) state

end Parser

/-- The parsers of the constructs that can stand inside themselves. Each parser of a construct is
written in terms of a grammar for what is nested in it. -/
structure Grammar where
  /-- A full expression. -/
  expr : Parser Expr
  /-- An expression that is no assignment. -/
  lambda : Parser Expr
  /-- An operand with the operators before it. -/
  unary : Parser Expr
  /-- A markup element. -/
  markup : Parser Expr
  /-- Statements between braces. -/
  block : Parser Block
  /-- An `if` statement. -/
  ifStatement : Parser Stmt
  /-- All lexemes as one expression. -/
  whole : Parser Expr

end Reckon
