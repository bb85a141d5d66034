import Reckon.Tree.Parser.Expression

/-!
# Parsing markup

An element is `<tag name="s" n=1 value={x} flag>children</tag>`, `<Component.Part/>` or a fragment
without a tag. Children are elements, expressions in braces, strings and bare text. The words of
bare text are joined by single blanks, and semicolons between children do not count.
-/

namespace Reckon.Grammar

open Reckon.Parser

/-- Selectors after a component name. -/
def componentPath (head : Variable) : Parser Expr :=
  loop (σ := Expr) (β := Expr)
    (fun owner => do
      if (← token) = .dot ∧ (← peekToken) = .name then
        advance
        let selector ← identifierRead
        return .again (.member ⟨owner.span.start, selector.span.stop⟩ owner selector)
      else
        return .done owner)
    (.var head)

/-- Further words of a plain tag, joined to it by points. -/
def plainPath (head : Identifier) : Parser Identifier :=
  loop (σ := Identifier) (β := Identifier)
    (fun path => do
      if (← token) = .dot ∧ (← peekToken) = .name then
        advance
        let word ← identifierRead
        return .again ⟨⟨path.span.start, word.span.stop⟩, path.name ++ "." ++ word.name⟩
      else
        return .done path)
    head

/-- Whether a name starts with an upper-case letter. -/
def startsUpper (name : String) : Bool :=
  name.toList.head?.any Text.isUpper

/-- The tag of an element. A name in upper case is a component, any other name stands for itself,
and a fragment has no name. -/
def tag : Parser Expr := do
  let lexeme ← current
  if lexeme.token ≠ .name then return .identifier ⟨← here, ""⟩
  else if startsUpper lexeme.lit then componentPath (← variableRead)
  else return .identifier (← plainPath (← identifierRead))

/-- An expression in braces, at the opening brace. -/
def braced (inner : Grammar) : Parser Expr := do
  advance
  let value ← inner.expr
  if ← accept .rightBrace then return value
  else return Expr.join .multiply value (← missing .braceExpected)

/-- The value of an attribute after the equals sign, if there is one. -/
def attributeValue? (inner : Grammar) : Parser (Option Expr) := do
  match ← token with
  | .string => return some (← literal (.string (← current).lit))
  | .number => return some (← number)
  | .template => return some (← inner.template)
  | .leftBrace => return some (← inner.braced)
  | _ => return none

/-- An attribute at its name. A name alone is true. -/
def attributeEntry (inner : Grammar) : Parser Entry := do
  let key ← current
  advance
  if ← accept .assign then
    match ← inner.attributeValue? with
    | some value => return .property (← spanFrom key.span.start) key.lit value
    | none => return .invalid (← skipLexeme) .unexpectedToken
  else
    let span ← spanFrom key.span.start
    return .property span key.lit (.constant span (.boolean true))

/-- How the opening tag of an element ends. -/
inductive TagEnd where
  /-- With `>`: children follow. -/
  | opened
  /-- With `/>`: there are no children. -/
  | closed
  /-- Not at all. -/
  | broken

/-- The attributes of an element up to the end of its opening tag. -/
def attributes (inner : Grammar) : Parser (List Entry × TagEnd) :=
  loop (σ := List Entry) (β := List Entry × TagEnd)
    (fun soFar => do
      match ← token with
      | .name => return .again (soFar ++ [← inner.attributeEntry])
      | .slash =>
          advance
          return .done (soFar, if ← accept .greater then .closed else .broken)
      | .greater =>
          advance
          return .done (soFar, .opened)
      | .eof => return .done (soFar, .broken)
      | _ => return .again (soFar ++ [.invalid (← skipLexeme) .unexpectedToken]))
    []

/-- The children read so far, with the bare text that is being collected. -/
structure Children where
  /-- The finished children. -/
  finished : List Expr := []
  /-- The span and the words of the current text. -/
  text : Option (Span × String) := none

namespace Children

/-- All children, the current text included. -/
def all (children : Children) : List Expr :=
  match children.text with
  | none => children.finished
  | some (span, words) => children.finished ++ [.constant span (.string words)]

/-- Add a child after the current text. -/
def add (children : Children) (child : Expr) : Children :=
  { finished := children.all ++ [child] }

/-- Add a word to the current text. -/
def addWord (children : Children) (lexeme : Lexeme) : Children :=
  match children.text with
  | none => { children with text := some (lexeme.span, lexeme.lit) }
  | some (span, words) =>
      { children with text := some (⟨span.start, lexeme.span.stop⟩, words ++ " " ++ lexeme.lit) }

end Children

/-- The children of an element up to its closing tag, or nothing if there is no closing tag. -/
def children (inner : Grammar) : Parser (Option (List Expr)) :=
  loop (σ := Children) (β := Option (List Expr))
    (fun soFar => do
      match ← token with
      | .eof => return .done none
      | .less =>
          if (← peekToken) = .slash then return .done (some soFar.all)
          else return .again (soFar.add (← inner.markup))
      | .leftBrace => return .again (soFar.add (← inner.braced))
      | .string => return .again (soFar.add (← literal (.string (← current).lit)))
      | .semicolon =>
          advance
          return .again soFar
      | _ =>
          let lexeme ← current
          advance
          return .again (soFar.addWord lexeme))
    {}

/-- Pass over everything up to the end of a closing tag. -/
def skipClosingTag : Parser Unit := do
  loop (σ := Unit) (β := Unit)
    (fun _ => do
      if (← token) = .greater ∨ (← token) = .eof then return .done ()
      else
        advance
        return .again ())
    ()
  let _ ← accept .greater

/-- A markup element at its opening bracket. -/
def element (inner : Grammar) : Parser Expr := do
  let start := (← current).span.start
  advance
  if (← token) = .slash then
    skipClosingTag
    return .invalid (← spanFrom start) .elementNotOpened
  else
    let opening ← tag
    match ← inner.attributes with
    | (_, .broken) => return .invalid (← spanFrom start) .elementNotClosed
    | (entries, .closed) => return .markup (← spanFrom start) opening entries []
    | (entries, .opened) =>
        match ← inner.children with
        | none => return .invalid (← spanFrom start) .elementNotClosed
        | some list =>
            advance
            advance
            let closing ← tag
            if ← accept .greater then
              let span ← spanFrom start
              if closing.tagPath = opening.tagPath then return .markup span opening entries list
              else return .invalid span .elementTagMismatch
            else
              return .invalid (← spanFrom start) .elementNotClosed

end Reckon.Grammar
