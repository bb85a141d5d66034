import Reckon.Lexeme.Scanner
import Reckon.Tree.Parser.Statement

/-!
# Parsing a source

The grammar of each nesting depth is built from the grammar one level down. What is nested in a
construct has fewer lexemes than the construct, so the number of lexemes bounds the depth.
-/

namespace Reckon

namespace Grammar

/-- The grammar that gives no results. It is never reached from a grammar that is deep enough. -/
def bottom : Grammar where
  expr := failure
  lambda := failure
  unary := failure
  markup := failure
  block := failure
  ifStatement := failure
  whole := failure

/-- The grammar one level up. -/
def extend (inner : Grammar) : Grammar where
  expr := inner.assignment
  lambda := inner.function
  unary := inner.signed
  markup := inner.element
  block := inner.braces
  ifStatement := inner.ifThenElse
  whole := inner.entire

/-- The grammar for constructs nested up to a depth. -/
def ofDepth : Nat → Grammar
  | 0 => bottom
  | depth + 1 => extend (ofDepth depth)

end Grammar

mutual

/-- The number of lexemes in a lexeme, its replacements included. -/
def Lexeme.weight : Lexeme → Nat
  | .mk _ _ _ _ _ subs => Lexeme.weightSubs subs + 1

/-- The number of lexemes in the replacements of a template. -/
def Lexeme.weightSubs : List (List Lexeme) → Nat
  | [] => 0
  | lexemes :: rest => Lexeme.weightAll lexemes + 1 + Lexeme.weightSubs rest

/-- The number of lexemes in a list, replacements included. -/
def Lexeme.weightAll : List Lexeme → Nat
  | [] => 0
  | lexeme :: rest => lexeme.weight + Lexeme.weightAll rest

end

/-- A tree together with the frames of its functions. -/
structure Parsed (α : Type) where
  /-- The tree. -/
  tree : α
  /-- The frames. -/
  scope : Scope

namespace Parsed

/-- Run a parser on lexemes with a grammar that is deep enough for them: the result, and where the
parser stands then. The source number keeps the frames of different sources apart. -/
def attempt {α : Type} (parser : Grammar → Parser α) (source : Nat) (lexemes : List Lexeme) :
    Option (α × ParseState) :=
  let grammar := Grammar.ofDepth (Lexeme.weightAll lexemes + 1)
  (parser grammar).run (ParseState.start lexemes { source })

/-- Run a parser on lexemes. An attempt always gives a result, so the default tree never shows. -/
def run {α : Type} [Inhabited α] (parser : Grammar → Parser α) (source : Nat)
    (lexemes : List Lexeme) : Parsed α :=
  match attempt parser source lexemes with
  | some (tree, state) => { tree, scope := state.scope }
  | none => { tree := default, scope := { source } }

/-- Parse lexemes as a single expression. -/
def expression (source : Nat) (lexemes : List Lexeme) : Parsed Expr :=
  run Grammar.entire source lexemes

/-- Parse lexemes as a list of statements. -/
def statements (source : Nat) (lexemes : List Lexeme) : Parsed (List Stmt) :=
  run (fun grammar => Prod.fst <$> grammar.statements false) source lexemes

end Parsed

/-- The tree of an expression without a file. -/
def parseExpression (source : Nat) (text : String) : Expr :=
  (Parsed.expression source (Lexeme.scanText text)).tree

/-- The trees of the statements of a source. -/
def parseProgram (source : Nat) (file : String) (bytes : List UInt8) : List Stmt :=
  (Parsed.statements source (Lexeme.scan file bytes)).tree

end Reckon
