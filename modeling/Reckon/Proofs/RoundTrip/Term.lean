import Reckon.Tree.Parser

/-!
# Terms and how they are written

A term is an expression without spans and frames, of those forms whose text is on one line.  It is
written as a list of pieces, one for each lexeme, with a space between any two of them.  The forms
have levels of precedence, and each place in a form is a slot of some level: a child is put in
parentheses if its level is looser than the slot.

`Term.tree` is the tree that a term stands for, with a list of one item for each pair of parentheses,
and `Expr.bare` forgets the spans and frames of a tree.
-/

namespace Reckon

open Text (isLetter isDigit isNameRest)

/-! ## Names and numerals -/

/-- A name: a letter, then letters and digits, and no reserved word. -/
structure Name where
  first : Char
  rest : List Char
  isLetter_first : isLetter first = true
  isNameRest_rest : ∀ c ∈ rest, isNameRest c = true
  ofWord_eq_name : Token.ofWord (String.ofList (first :: rest)) = .name

/-- The text of a name. -/
def Name.text (name : Name) : String :=
  String.ofList (name.first :: name.rest)

/-- A whole number in decimal digits. -/
structure Numeral where
  first : Char
  rest : List Char
  isDigit_first : isDigit first = true
  isDigit_rest : ∀ c ∈ rest, isDigit c = true

namespace Numeral

/-- The digits of a numeral. -/
def digits (numeral : Numeral) : List Char :=
  numeral.first :: numeral.rest

/-- The text of a numeral. -/
def text (numeral : Numeral) : String :=
  String.ofList numeral.digits

/-- The whole number that a numeral stands for. -/
def value (numeral : Numeral) : Nat :=
  numeral.digits.foldl (fun value digit => value * 10 + (digit.toNat - '0'.toNat)) 0

end Numeral

/-! ## Levels -/

/-- The levels of precedence, loosest first. -/
inductive Level where
  | assignment
  | lambda
  | conditional
  | range
  | pipe
  | or
  | and
  | equality
  | comparison
  | sum
  | product
  | power
  | unary
  | postfixed
deriving DecidableEq, Repr

namespace Level

/-- The place of a level in the order from loose to tight. -/
def rank : Level → Nat
  | assignment => 0
  | lambda => 1
  | conditional => 2
  | range => 3
  | pipe => 4
  | or => 5
  | and => 6
  | equality => 7
  | comparison => 8
  | sum => 9
  | product => 10
  | power => 11
  | unary => 12
  | postfixed => 13

/-- The level one tighter; there is none after the tightest. -/
def tighter : Level → Level
  | assignment => lambda
  | lambda => conditional
  | conditional => range
  | range => pipe
  | pipe => or
  | or => and
  | and => equality
  | equality => comparison
  | comparison => sum
  | sum => product
  | product => power
  | power => unary
  | unary => postfixed
  | postfixed => postfixed

end Level

namespace BinaryOp

/-- The level of a binary operator. -/
def level : BinaryOp → Level
  | pipe => .pipe
  | or => .or
  | and => .and
  | equal | notEqual => .equality
  | less | lessEqual | greater | greaterEqual => .comparison
  | add | subtract => .sum
  | multiply | divide | remainder => .product
  | power => .power

/-- The slot to the left of an operator: its own level, so that chains group from the left, except
that powers group from the right. -/
def leftSlot : BinaryOp → Level
  | power => .unary
  | op => op.level

/-- The slot to the right of an operator. -/
def rightSlot : BinaryOp → Level
  | power => .power
  | op => op.level.tighter

/-- The class of the lexeme of a binary operator. -/
def token : BinaryOp → Token
  | pipe => .pipe
  | or => .orOr
  | and => .andAnd
  | equal => .equal
  | notEqual => .notEqual
  | less => .less
  | lessEqual => .lessEqual
  | greater => .greater
  | greaterEqual => .greaterEqual
  | add => .plus
  | subtract => .minus
  | multiply => .star
  | divide => .slash
  | remainder => .percent
  | power => .caret

end BinaryOp

/-- The class of the lexeme of a unary operator. -/
def UnaryOp.token : UnaryOp → Token
  | negate => .minus
  | plus => .plus
  | not => .bang
  | await => .kwAwait

/-! ## Terms -/

mutual

/-- An expression that is written on one line. -/
inductive Term where
  | number (numeral : Numeral)
  | boolean (value : Bool)
  | null
  | place (place : Place)
  | factorial (operand : Term)
  | unary (op : UnaryOp) (operand : Term)
  | binary (op : BinaryOp) (left right : Term)
  | range (first last : Term)
  | steppedRange (first step last : Term)
  | conditional (test whenTrue whenFalse : Term)
  | function (params : List Name) (body : Term)
  | assignment (target : Place) (value : Term)

/-- A term that can be assigned to. -/
inductive Place where
  | name (name : Name)
  | member (owner : Term) (selector : Name)
  | call (callee : Term) (args : List Term)

end

namespace Term

/-- The level of a term. -/
def level : Term → Level
  | number _ | boolean _ | null | place _ | factorial _ => .postfixed
  | unary .. => .unary
  | binary op .. => op.level
  | range .. | steppedRange .. => .range
  | conditional .. => .conditional
  | function .. => .lambda
  | assignment .. => .assignment

/-- Whether a term is too loose for a slot. -/
def isLoose (slot : Level) (term : Term) : Bool :=
  term.level.rank < slot.rank

/-- Whether a term is a numeral. -/
def isNumeral : Term → Bool
  | number _ => true
  | _ => false

/-- Whether a term cannot be called as it stands. A numeral before a parenthesis would be a factor. -/
def isUncallable (callee : Term) : Bool :=
  callee.isLoose .postfixed || callee.isNumeral

end Term

/-! ## Texts -/

/-- A lexeme without its place. -/
structure Piece where
  token : Token
  lit : String
deriving DecidableEq, Repr

namespace Piece

/-- The piece of an operator, a delimiter or a reserved word. -/
def sign (token : Token) : Piece :=
  ⟨token, token.spelling⟩

/-- The piece of a name. -/
def ofName (name : Name) : Piece :=
  ⟨.name, name.text⟩

/-- The piece of a numeral. -/
def ofNumeral (numeral : Numeral) : Piece :=
  ⟨.number, numeral.text⟩

/-- Put pieces in parentheses if need be. -/
def enclose (needed : Bool) (pieces : List Piece) : List Piece :=
  if needed then sign .leftParen :: (pieces ++ [sign .rightParen]) else pieces

/-- Names with commas between them. -/
def names : List Name → List Piece
  | [] => []
  | [name] => [ofName name]
  | name :: rest => ofName name :: sign .comma :: names rest

/-- The characters of some pieces with spaces between them. -/
def spelling (pieces : List Piece) : List Char :=
  List.intercalate [' '] (pieces.map (·.lit.toList))

/-- The text of some pieces with spaces between them. -/
def line (pieces : List Piece) : String :=
  String.ofList (spelling pieces)

end Piece

open Piece

mutual

/-- The pieces of a term. -/
def Term.pieces : Term → List Piece
  | .number numeral => [.ofNumeral numeral]
  | .boolean true => [sign .kwTrue]
  | .boolean false => [sign .kwFalse]
  | .null => [sign .kwNull]
  | .place place => place.pieces
  | .factorial operand =>
      enclose (operand.isLoose .postfixed) operand.pieces ++ [sign .bang]
  | .unary op operand => sign op.token :: enclose (operand.isLoose .unary) operand.pieces
  | .binary op left right =>
      enclose (left.isLoose op.leftSlot) left.pieces ++
        sign op.token :: enclose (right.isLoose op.rightSlot) right.pieces
  | .range first last =>
      enclose (first.isLoose .pipe) first.pieces ++
        sign .range :: enclose (last.isLoose .pipe) last.pieces
  | .steppedRange first step last =>
      enclose (first.isLoose .pipe) first.pieces ++
        sign .range :: (enclose (step.isLoose .pipe) step.pieces ++
          sign .range :: enclose (last.isLoose .pipe) last.pieces)
  | .conditional test whenTrue whenFalse =>
      enclose (test.isLoose .range) test.pieces ++
        sign .question :: (enclose (whenTrue.isLoose .lambda) whenTrue.pieces ++
          sign .colon :: enclose (whenFalse.isLoose .lambda) whenFalse.pieces)
  | .function params body => enclose true (names params) ++ sign .arrow :: body.pieces
  | .assignment target value => target.pieces ++ sign .assign :: value.pieces

/-- The pieces of a term that can be assigned to. -/
def Place.pieces : Place → List Piece
  | .name name => [.ofName name]
  | .member owner selector =>
      enclose (owner.isLoose .postfixed) owner.pieces ++ [sign .dot, .ofName selector]
  | .call callee args =>
      enclose callee.isUncallable callee.pieces ++ enclose true (Term.listed args)

/-- The pieces of terms with commas between them. -/
def Term.listed : List Term → List Piece
  | [] => []
  | [term] => term.pieces
  | term :: rest => term.pieces ++ sign .comma :: Term.listed rest

end

theorem Term.listed_cons_cons (first second : Term) (rest : List Term) :
    Term.listed (first :: second :: rest) =
      first.pieces ++ sign .comma :: Term.listed (second :: rest) :=
  Term.listed.eq_3 first (second :: rest) (by simp)

theorem Piece.names_eq_listed (params : List Name) :
    names params = Term.listed (params.map fun name => .place (.name name)) := by
  induction params with
  | nil =>
      rfl
  | cons name rest inductionHypothesis =>
      cases rest with
      | nil =>
          rfl
      | cons second others =>
          rw [names.eq_3 name (second :: others) (by simp), inductionHypothesis]
          simp only [List.map_cons, Term.listed_cons_cons]
          rfl

/-- The text of a term. -/
def Term.render (term : Term) : String :=
  line term.pieces

/-! ## Trees -/

/-- A name without its place. -/
def Variable.named (name : String) : Variable :=
  { span := {}, name, frame := none }

/-- Put a tree in a list of one item if need be. -/
def Expr.enclose (needed : Bool) (tree : Expr) : Expr :=
  if needed then .arguments {} [tree] else tree

mutual

/-- The tree of a term. -/
def Term.tree : Term → Expr
  | .number numeral => .constant {} (.number (Decimal.ofNat numeral.value))
  | .boolean value => .constant {} (.boolean value)
  | .null => .constant {} .null
  | .place place => place.tree
  | .factorial operand => .factorial {} (operand.tree.enclose (operand.isLoose .postfixed))
  | .unary op operand => .unary {} op (operand.tree.enclose (operand.isLoose .unary))
  | .binary op left right =>
      .binary {} op (left.tree.enclose (left.isLoose op.leftSlot))
        (right.tree.enclose (right.isLoose op.rightSlot)) false
  | .range first last =>
      .range {} (first.tree.enclose (first.isLoose .pipe)) none
        (last.tree.enclose (last.isLoose .pipe))
  | .steppedRange first step last =>
      .range {} (first.tree.enclose (first.isLoose .pipe))
        (some (step.tree.enclose (step.isLoose .pipe))) (last.tree.enclose (last.isLoose .pipe))
  | .conditional test whenTrue whenFalse =>
      .conditional {} (test.tree.enclose (test.isLoose .range))
        (whenTrue.tree.enclose (whenTrue.isLoose .lambda))
        (whenFalse.tree.enclose (whenFalse.isLoose .lambda))
  | .function params body =>
      .function {} default (params.map fun name => .named name.text) (.expr body.tree)
  | .assignment target value => .assignment {} target.tree value.tree

/-- The tree of a term that can be assigned to. -/
def Place.tree : Place → Expr
  | .name name => .var (.named name.text)
  | .member owner selector =>
      .member {} (owner.tree.enclose (owner.isLoose .postfixed)) { span := {}, name := selector.text }
  | .call callee args =>
      .call {} (callee.tree.enclose callee.isUncallable) (Term.trees args)

/-- The trees of terms. -/
def Term.trees : List Term → List Expr
  | [] => []
  | term :: rest => term.tree :: Term.trees rest

end

mutual

/-- A tree without its spans and frames.  Forms that no term has are left as they are. -/
def Expr.bare : Expr → Expr
  | .constant _ value => .constant {} value
  | .var name => .var (.named name.name)
  | .binary _ op left right implicit => .binary {} op left.bare right.bare implicit
  | .unary _ op operand => .unary {} op operand.bare
  | .factorial _ operand => .factorial {} operand.bare
  | .range _ first none last => .range {} first.bare none last.bare
  | .range _ first (some step) last => .range {} first.bare (some step.bare) last.bare
  | .conditional _ test whenTrue whenFalse =>
      .conditional {} test.bare whenTrue.bare whenFalse.bare
  | .call _ callee args => .call {} callee.bare (Expr.bareAll args)
  | .arguments _ items => .arguments {} (Expr.bareAll items)
  | .function _ _ params body =>
      .function {} default (params.map fun param => .named param.name) body.bare
  | .member _ owner selector => .member {} owner.bare { span := {}, name := selector.name }
  | .assignment _ target value => .assignment {} target.bare value.bare
  | other => other

/-- A body without its spans and frames. -/
def Body.bare : Body → Body
  | .expr value => .expr value.bare
  | .block statements => .block statements

/-- Trees without their spans and frames. -/
def Expr.bareAll : List Expr → List Expr
  | [] => []
  | tree :: rest => tree.bare :: Expr.bareAll rest

end

end Reckon
