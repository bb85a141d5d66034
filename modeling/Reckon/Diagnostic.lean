import Reckon.Source.Position

/-!
# Diagnostics

What can be wrong with a source, and where. Each kind of defect has a fixed name and a fixed
description.
-/

namespace Reckon

/-- The kinds of malformed input, in the order of their numbers, which start at one. -/
inductive Defect where
  | parenExpected
  | bracketExpected
  | braceExpected
  | terminatorExpected
  | identifierExpected
  | colonExpected
  | keywordExpected
  | invalidSymbol
  | unexpectedToken
  | unterminatedBlock
  | unterminatedMatrix
  | unterminatedObject
  | unterminatedString
  | elementNotOpened
  | elementNotClosed
  | elementTagMismatch
  | invalidAssignment
  | invalidParameter
deriving DecidableEq, Repr, Inhabited

namespace Defect

/-- Every kind of defect, in the order of the numbers. -/
def all : List Defect :=
  [parenExpected, bracketExpected, braceExpected, terminatorExpected, identifierExpected,
    colonExpected, keywordExpected, invalidSymbol, unexpectedToken, unterminatedBlock,
    unterminatedMatrix, unterminatedObject, unterminatedString, elementNotOpened,
    elementNotClosed, elementTagMismatch, invalidAssignment, invalidParameter]

/-- The name of a kind of defect. -/
def name : Defect → String
  | parenExpected => "ParenExpected"
  | bracketExpected => "BracketExpected"
  | braceExpected => "BraceExpected"
  | terminatorExpected => "TerminatorExpected"
  | identifierExpected => "IdentifierExpected"
  | colonExpected => "ColonExpected"
  | keywordExpected => "KeywordExpected"
  | invalidSymbol => "InvalidSymbol"
  | unexpectedToken => "UnexpectedToken"
  | unterminatedBlock => "UnterminatedBlock"
  | unterminatedMatrix => "UnterminatedMatrix"
  | unterminatedObject => "UnterminatedObject"
  | unterminatedString => "UnterminatedString"
  | elementNotOpened => "JsxNotOpened"
  | elementNotClosed => "JsxNotClosed"
  | elementTagMismatch => "JsxTagMismatch"
  | invalidAssignment => "InvalidAssignment"
  | invalidParameter => "InvalidParameter"

/-- The description of a kind of defect. -/
def description : Defect → String
  | parenExpected => "expected )"
  | bracketExpected => "expected ]"
  | braceExpected => "expected \x7d"
  | terminatorExpected => "expected ; or newline"
  | identifierExpected => "expected identifier"
  | colonExpected => "expected :"
  | keywordExpected => "expected keyword"
  | invalidSymbol => "invalid symbol"
  | unexpectedToken => "unexpected token"
  | unterminatedBlock => "block is not terminated"
  | unterminatedMatrix => "matrix is not terminated"
  | unterminatedObject => "object is not terminated"
  | unterminatedString => "string is not terminated"
  | elementNotOpened => "element was closed but never opened"
  | elementNotClosed => "element is not closed"
  | elementTagMismatch => "closing tag does not match opening tag"
  | invalidAssignment => "left side cannot be assigned to"
  | invalidParameter => "parameter must be a name"

/-- The kind of defect with a given number, if there is one. -/
def ofNumber? : Nat → Option Defect
  | 0 => none
  | n + 1 => all[n]?

/-- The name shown for a defect number; a number without a defect shows itself. -/
def nameOfNumber (n : Nat) : String :=
  match ofNumber? n with
  | some defect => defect.name
  | none => "Code" ++ toString n

/-- The description shown for a defect number. -/
def descriptionOfNumber (n : Nat) : String :=
  match ofNumber? n with
  | some defect => defect.description
  | none => "code(" ++ toString n ++ ")"

end Defect

/-- A defect found in a source and the stretch of source it covers. -/
structure Diagnostic where
  /-- What is wrong. -/
  defect : Defect
  /-- Where it is. -/
  span : Span
deriving DecidableEq, Repr

/-- The text of a diagnostic: the place and the description. -/
def Diagnostic.message (diagnostic : Diagnostic) : String :=
  diagnostic.span.start.render ++ ": " ++ diagnostic.defect.description

end Reckon
