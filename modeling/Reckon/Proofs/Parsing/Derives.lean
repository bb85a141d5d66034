import Reckon.Proofs.Parsing.Ensures
import Reckon.Proofs.Tree.Children

/-!
# What reading builds

Reading lexemes builds trees, in source order.  There is one rule for each way in which lexemes become
trees: a lexeme becomes a leaf, trees become the children of a node, signs and keywords leave nothing
behind, and what is malformed becomes an invalid leaf.  A few constructs have rules of their own: those
that enter a function, those that read streams of their own, those that pass over lexemes, those that
declare variables, and the compound assignment, which uses its target twice.

Properties of the trees of all sources are proved by induction on these rules.
-/

namespace Reckon

/-- Whether a lexeme of this class has a content of its own: a name or a literal. -/
def Token.isContent : Token → Bool
  | .name | .number | .string | .template | .kwTrue | .kwFalse | .kwNull => true
  | _ => false

/-- Whether a lexeme of this class leaves nothing behind: it has no content of its own, and it is not
the end of the source. -/
def Token.isSign : Token → Bool
  | .eof | .name | .number | .string | .template | .kwTrue | .kwFalse | .kwNull => false
  | _ => true

theorem Token.isContent_of_isSign {token : Token} (sign : token.isSign = true) :
    token.isContent = false := by
  cases token <;> first | rfl | cases sign

theorem Token.ne_eof_of_isSign {token : Token} (sign : token.isSign = true) : token ≠ .eof := by
  rintro rfl
  cases sign

/-- Whether a node is made of its children, with signs and keywords between them, and declares
nothing. -/
def Node.isComposite : Node → Bool
  | .expr (.empty _) | .expr (.invalid ..) | .expr (.constant ..) | .expr (.var _)
  | .expr (.identifier _) | .expr (.function ..) | .expr (.interpolated ..)
  | .entry (.invalid ..) | .stmt (.letIn ..) | .stmt (.forIn ..) => false
  | _ => true

namespace ParseState

/-- Lexemes are passed over. -/
inductive Skips : ParseState → ParseState → Prop
  | refl (state : ParseState) : Skips state state
  | more {first second : ParseState} : Skips first second → Skips first second.advance

/-- The lexemes of a path of names are passed over. -/
inductive SkipsPath : ParseState → ParseState → Prop
  | refl (state : ParseState) : SkipsPath state state
  | more {first second : ParseState} : SkipsPath first second →
      second.token = .name ∨ second.token = .dot → SkipsPath first second.advance

theorem SkipsPath.skips {first second : ParseState} (path : SkipsPath first second) :
    Skips first second := by
  induction path with
  | refl => exact .refl _
  | more _ _ inductionHypothesis => exact .more inductionHypothesis

theorem Skips.trans {first second third : ParseState} (left : Skips first second)
    (right : Skips second third) : Skips first third := by
  induction right with
  | refl => exact left
  | more _ inductionHypothesis => exact .more inductionHypothesis

/-- The variable that the current lexeme reads. -/
def reference (state : ParseState) : Variable where
  span := state.cursor.current.span
  name := state.cursor.current.lit
  frame := state.scope.find? state.cursor.current.lit

/-- The variable that the current lexeme declares. -/
def declaration (state : ParseState) : Variable where
  span := state.cursor.current.span
  name := state.cursor.current.lit
  frame := state.scope.current

/-- The state after the declaration of a variable by the current lexeme. -/
def declare (state : ParseState) : ParseState :=
  ParseState.advance
    { state with scope := state.scope.declare state.declaration.name state.declaration }

/-- The state in which the body of a function is read, after its arrow. -/
def enter (state : ParseState) (params : List Variable) : ParseState :=
  { state.advance with scope := state.scope.push.2.declareAll params }

/-- The state after the body of a function. -/
def leave (state : ParseState) : ParseState :=
  { state with scope := state.scope.pop.2 }

/-- The tag of an element, with the trees that are read for it.  The tag of a fragment is not read: it
has no name and stands at the sign that closes the fragment's opening. -/
inductive ReadsTag (state : ParseState) : Expr → List Node → Prop
  | fragment : ReadsTag state (.identifier ⟨.point state.cursor.current.span.start, ""⟩) []
  | named (tag : Expr) : ReadsTag state tag [.expr tag]

/-- What holds of all that is read, and of names without a variable, holds of the tag too. -/
theorem ReadsTag.forall_mem {state : ParseState} {tag : Expr} {read more : List Node}
    {holds : Node → Prop} (isTag : state.ReadsTag tag read)
    (name : ∀ name, holds (.expr (.identifier name))) (all : ∀ tree ∈ read ++ more, holds tree) :
    ∀ tree ∈ .expr tag :: more, holds tree := by
  cases isTag with
  | fragment => exact List.forall_mem_cons.mpr ⟨name _, all⟩
  | named _ => exact all

/-- What closes an element after its attributes and children: the end of its only tag, or a tag of its
own. -/
inductive ClosesElement : ParseState → ParseState → Prop
  | within {state : ParseState} : state.token = .slash → state.advance.token = .greater →
      ClosesElement state state.advance.advance
  | tag {first second : ParseState} : first.token = .less → first.advance.token = .slash →
      SkipsPath first.advance.advance second → second.token = .greater →
      ClosesElement first second.advance

theorem ClosesElement.skips {first second : ParseState} (closes : ClosesElement first second) :
    Skips first second := by
  cases closes with
  | within _ _ => exact .more (.more (.refl first))
  | tag _ _ path _ => exact .trans (.more (.more (.refl first))) (.more path.skips)

end ParseState

/-- What is read: lexemes from one state to another, or the streams of a template, which share their
scopes. -/
inductive Reading where
  | lexemes (first second : ParseState)
  | streams (scope : Scope) (streams : List (List Lexeme)) (after : Scope)

/-- The span of a construct: it starts at the first lexeme or with the first part, and stops after the
last lexeme or with the last part. -/
structure ParseState.Covers (first : ParseState) (trees : List Node) (second : ParseState)
    (span : Span) : Prop where
  start : span.start = first.cursor.current.span.start ∨
    ∃ tree ∈ trees.head?, span.start = tree.span.start
  stop : span.stop = second.previous ∨ ∃ tree ∈ trees.getLast?, span.stop = tree.span.stop

open ParseState in
/-- Reading builds trees. -/
inductive Derives : Reading → List Node → Prop
  | nothing (state : ParseState) : Derives (.lexemes state state) []
  | sequence {first second third : ParseState} {left right : List Node} :
      Derives (.lexemes first second) left → Derives (.lexemes second third) right →
      Derives (.lexemes first third) (left ++ right)
  | sign {state : ParseState} : state.token.isSign = true →
      Derives (.lexemes state state.advance) []
  | constant {state : ParseState} (value : Literal) : state.token ≠ .eof →
      Derives (.lexemes state state.advance) [.expr (.constant state.cursor.current.span value)]
  | read {state : ParseState} : state.token ≠ .eof →
      Derives (.lexemes state state.advance) [.expr (.var state.reference)]
  | declare {state : ParseState} : state.token ≠ .eof →
      Derives (.lexemes state state.declare) [.expr (.var state.declaration)]
  | identifier {state : ParseState} : state.token ≠ .eof →
      Derives (.lexemes state state.advance)
        [.expr (.identifier ⟨state.cursor.current.span, state.cursor.current.lit⟩)]
  | word {first second : ParseState} {trees : List Node} {span : Span} {text : String}
      (longer : String) :
      Derives (.lexemes first second) (trees ++ [.expr (.constant span (.string text))]) →
      second.token ≠ .eof →
      Derives (.lexemes first second.advance)
        (trees ++ [.expr (.constant ⟨span.start, second.cursor.current.span.stop⟩ (.string longer))])
  | path {first second : ParseState} {span : Span} {name : String} (longer : String) :
      Derives (.lexemes first second) [.expr (.identifier ⟨span, name⟩)] → second.token ≠ .eof →
      Derives (.lexemes first second.advance)
        [.expr (.identifier ⟨⟨span.start, second.cursor.current.span.stop⟩, longer⟩)]
  | empty (state : ParseState) :
      Derives (.lexemes state state) [.expr (.empty (.point state.cursor.current.span.start))]
  | omitted {first second : ParseState} {trees : List Node} {span : Span} :
      Derives (.lexemes first second) (trees ++ [.expr (.empty span)]) →
      Derives (.lexemes first second) trees
  | bad {first second : ParseState} {trees : List Node} (defect : Defect) :
      Derives (.lexemes first second) trees →
      Derives (.lexemes first second.advance) [.expr (.invalid second.cursor.current.span defect)]
  | missing (state : ParseState) (defect : Defect) :
      Derives (.lexemes state state)
        [.expr (.invalid (.point state.cursor.current.span.start) defect)]
  | badEntry (state : ParseState) (defect : Defect) :
      Derives (.lexemes state state.advance) [.entry (.invalid state.cursor.current.span defect)]
  | missingEntry (state : ParseState) (defect : Defect) :
      Derives (.lexemes state state)
        [.entry (.invalid (.point state.cursor.current.span.start) defect)]
  | spoilt {first second third : ParseState} {trees : List Node} {span : Span} (defect : Defect) :
      Derives (.lexemes first second) trees → Skips second third →
      first.Covers trees third span → Derives (.lexemes first third) [.expr (.invalid span defect)]
  | spoiltEntry {first second : ParseState} (defect : Defect) :
      Skips first second →
      Derives (.lexemes first second.advance) [.entry (.invalid second.cursor.current.span defect)]
  | node {first second : ParseState} {node : Node} :
      Derives (.lexemes first second) node.children → node.children ≠ [] → node.isComposite = true →
      first.Covers node.children second node.span → Derives (.lexemes first second) [node]
  -- A construct that may have no children starts with a sign.
  | enclosed {first second : ParseState} {node : Node} : first.token.isSign = true →
      Derives (.lexemes first.advance second) node.children → node.isComposite = true →
      node.span = ⟨first.cursor.current.span.start, second.previous⟩ →
      Derives (.lexemes first second) [node]
  | property {first second : ParseState} {span : Span} {value : Expr} :
      Derives (.lexemes first.advance second) [.expr value] →
      span = ⟨first.cursor.current.span.start, second.previous⟩ →
      Derives (.lexemes first second) [.entry (.property span first.cursor.current.lit value)]
  | compound {first second : ParseState} {span : Span} {op : BinaryOp} {target value : Expr} :
      Derives (.lexemes first second) [.expr target, .expr value] →
      span = ⟨target.span.start, value.span.stop⟩ →
      Derives (.lexemes first second)
        [.expr (.assignment span target (Expr.join op target value))]
  | function {first second third : ParseState} {head : Expr} {items : List Expr} {body : Body} :
      Derives (.lexemes first second) [.expr head] → Grammar.parameters? head = some items →
      second.token = .arrow →
      (Grammar.parameterNames second.scope.push.1 items).length = items.length →
      Derives
        (.lexemes (second.enter (Grammar.parameterNames second.scope.push.1 items)) third)
        [body.root] →
      Derives (.lexemes first third.leave)
        [.expr (.function ⟨head.span.start, body.span.stop⟩ second.scope.push.1
          (Grammar.parameterNames second.scope.push.1 items) body)]
  | spoiltFunction {first second third : ParseState} {head : Expr} {params : List Variable}
      {body : Body} (defect : Defect) :
      Derives (.lexemes first second) [.expr head] →
      second.token = .arrow → Derives (.lexemes (second.enter params) third) [body.root] →
      Derives (.lexemes first third.leave)
        [.expr (.invalid ⟨head.span.start, body.span.stop⟩ defect)]
  | template {state : ParseState} {trees : List Expr} {scope : Scope} : state.token = .template →
      Derives (.streams state.scope state.cursor.current.subs scope) (trees.map .expr) →
      Derives (.lexemes state (ParseState.advance { state with scope }))
        [.expr (.interpolated state.cursor.current.span state.cursor.current.parts trees)]
  | noStreams (scope : Scope) : Derives (.streams scope [] scope) []
  | stream {scope last : Scope} {after : ParseState} {lexemes : List Lexeme}
      {rest : List (List Lexeme)} {tree : Expr} {trees : List Node} :
      Derives (.lexemes (ParseState.start lexemes scope) after) [.expr tree] →
      Derives (.streams after.scope rest last) trees →
      Derives (.streams scope (lexemes :: rest) last) (.expr tree :: trees)
  | element {first second third : ParseState} {span : Span} {tag : Expr} {read : List Node}
      {attributes : List Entry} {children : List Expr} : first.token = .less →
      first.advance.ReadsTag tag read →
      Derives (.lexemes first.advance second)
        (read ++ (attributes.map .entry ++ children.map .expr)) →
      ClosesElement second third → span = ⟨first.cursor.current.span.start, third.previous⟩ →
      Derives (.lexemes first third) [.expr (.markup span tag attributes children)]
  | letIn {first second : ParseState} {span : Span} {name : Variable} {value : Option Expr} :
      Derives (.lexemes first second) (.expr (.var name) :: value.toList.map .expr) →
      name.frame = first.scope.current →
      span = ⟨first.cursor.current.span.start, second.previous⟩ →
      Derives (.lexemes first second) [.stmt (.letIn span name value)]
  | loop {first second third fourth : ParseState} {span : Span} {key value : Option Variable}
      {source : Expr} {body : Block} :
      Derives (.lexemes first second)
        (variableNodes key.toList ++ variableNodes value.toList ++ [.expr source]) →
      (∀ name ∈ key.toList ++ value.toList, name.frame = first.scope.current) →
      Skips second third → Derives (.lexemes third fourth) [.stmt (.block body)] →
      span = ⟨first.cursor.current.span.start, fourth.previous⟩ →
      Derives (.lexemes first fourth) [.stmt (.forIn span key value source body)]

namespace ParseState

/-- Reading lexemes from one state to another builds trees. -/
abbrev Builds (first : ParseState) (trees : List Node) (second : ParseState) : Prop :=
  Derives (.lexemes first second) trees

end ParseState

end Reckon
