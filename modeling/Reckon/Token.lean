/-!
# Tokens

A token is the class of a piece of source text. The order of the constructors is the order of
the token numbers.
-/

namespace Reckon

/-- The class of a lexeme. -/
inductive Token where
  /-- The end of the source. -/
  | eof
  /-- A character that starts no lexeme. -/
  | illegal
  /-- A string or template that is not closed. -/
  | badString
  /-- Blanks, and newlines that end no statement. -/
  | space
  /-- A line comment or a block comment. -/
  | comment
  /-- A name that is no keyword. -/
  | name
  /-- A number literal. -/
  | number
  /-- A string literal. -/
  | string
  /-- A template string with its replacements. -/
  | template
  | assign
  | arrow
  | question
  | colon
  | range
  | pipe
  | orOr
  | andAnd
  | equal
  | notEqual
  | less
  | lessEqual
  | greater
  | greaterEqual
  | plus
  | minus
  | star
  | slash
  | percent
  | caret
  | bang
  | leftParen
  | rightParen
  | leftBracket
  | rightBracket
  | leftBrace
  | rightBrace
  | comma
  | semicolon
  | dot
  | kwAwait
  | kwBreak
  | kwContinue
  | kwElse
  | kwFalse
  | kwFor
  | kwIf
  | kwIn
  | kwLet
  | kwNull
  | kwReturn
  | kwTrue
  | kwWhile
deriving DecidableEq, Repr, Inhabited

namespace Token

/-- Every token, in the order of the token numbers. -/
def all : List Token :=
  [eof, illegal, badString, space, comment, name, number, string, template, assign, arrow,
    question, colon, range, pipe, orOr, andAnd, equal, notEqual, less, lessEqual, greater,
    greaterEqual, plus, minus, star, slash, percent, caret, bang, leftParen, rightParen,
    leftBracket, rightBracket, leftBrace, rightBrace, comma, semicolon, dot, kwAwait, kwBreak,
    kwContinue, kwElse, kwFalse, kwFor, kwIf, kwIn, kwLet, kwNull, kwReturn, kwTrue, kwWhile]

/-- The token with a given number, if there is one. -/
def ofNumber? (n : Nat) : Option Token :=
  all[n]?

/-- The name of a token class, or the text of an operator, delimiter or keyword. -/
def spelling : Token → String
  | eof => "EOF"
  | illegal => "ILLEGAL"
  | badString => "BADSTRING"
  | space => "SPACE"
  | comment => "COMMENT"
  | name => "NAME"
  | number => "NUMBER"
  | string => "STRING"
  | template => "TEMPLATE"
  | assign => "="
  | arrow => "=>"
  | question => "?"
  | colon => ":"
  | range => ".."
  | pipe => "|>"
  | orOr => "||"
  | andAnd => "&&"
  | equal => "=="
  | notEqual => "!="
  | less => "<"
  | lessEqual => "<="
  | greater => ">"
  | greaterEqual => ">="
  | plus => "+"
  | minus => "-"
  | star => "*"
  | slash => "/"
  | percent => "%"
  | caret => "^"
  | bang => "!"
  | leftParen => "("
  | rightParen => ")"
  | leftBracket => "["
  | rightBracket => "]"
  | leftBrace => "\x7b"
  | rightBrace => "\x7d"
  | comma => ","
  | semicolon => ";"
  | dot => "."
  | kwAwait => "await"
  | kwBreak => "break"
  | kwContinue => "continue"
  | kwElse => "else"
  | kwFalse => "false"
  | kwFor => "for"
  | kwIf => "if"
  | kwIn => "in"
  | kwLet => "let"
  | kwNull => "null"
  | kwReturn => "return"
  | kwTrue => "true"
  | kwWhile => "while"

/-- The name shown for a token number; a number without a token shows itself. -/
def nameOfNumber (n : Nat) : String :=
  match ofNumber? n with
  | some token => token.spelling
  | none => "token(" ++ toString n ++ ")"

/-- Whether the token is a reserved word. -/
def isKeyword : Token → Bool
  | kwAwait | kwBreak | kwContinue | kwElse | kwFalse | kwFor | kwIf | kwIn | kwLet | kwNull
  | kwReturn | kwTrue | kwWhile => true
  | _ => false

/-- Whether the token is an operator. -/
def isOperator : Token → Bool
  | assign | arrow | question | colon | range | pipe | orOr | andAnd | equal | notEqual | less
  | lessEqual | greater | greaterEqual | plus | minus | star | slash | percent | caret | bang =>
      true
  | _ => false

/-- Whether the token ends the source. -/
def isEof (token : Token) : Bool :=
  token == eof

/-- Whether the token marks text that could not be read. -/
def isMalformed (token : Token) : Bool :=
  token == illegal || token == badString

/-- Whether the parser sees the token: blanks and comments are passed over. -/
def isSignificant (token : Token) : Bool :=
  token != space && token != comment

/-- Whether a newline after this token may end a statement: the token can be the last of an
expression, a jump or a markup element. -/
def mayEndStatement : Token → Bool
  | name | number | string | template | badString | kwBreak | kwContinue | kwReturn | kwTrue
  | kwFalse | kwNull | rightParen | rightBracket | rightBrace | greater => true
  | _ => false

/-- The reserved words. -/
def keywords : List Token :=
  all.filter isKeyword

/-- The token of a word: its keyword if it is reserved, a name otherwise. -/
def ofWord (word : String) : Token :=
  (keywords.find? fun token => token.spelling == word).getD name

theorem mem_all (token : Token) : token ∈ all := by
  cases token <;> decide

end Token

end Reckon
