import Reckon.Proofs.Lexeme.Tiling
import Reckon.Proofs.Parsing.Order

/-!
# The shapes of trees

The trees of all sources have shapes that their evaluation relies on.  What the parser puts together
is complete, so targets can be assigned to and rows have cells; what the scanner finds in a template
has one part more than there are replacements, and the parser reads a tree for each of them.
-/

namespace Reckon

/-! ## All nodes of a tree -/

namespace Node

variable {holds : Node → Prop} {node inner : Node}

/-- A property of all nodes of a tree. -/
def Throughout (holds : Node → Prop) (node : Node) : Prop :=
  ∀ inner ∈ node.walk, holds inner

theorem throughout_iff :
    node.Throughout holds ↔ holds node ∧ ∀ child ∈ node.children, child.Throughout holds := by
  rw [Throughout, walk_eq, List.forall_mem_cons]
  refine and_congr_right fun _ => ?_
  constructor
  · intro all child member inner below
    exact all inner (List.mem_flatMap.mpr ⟨child, member, below⟩)
  · intro all inner below
    obtain ⟨child, member, inside⟩ := List.mem_flatMap.mp below
    exact all child member inner inside

theorem throughout_of_leaf (own : holds node) (noChildren : node.children = []) :
    node.Throughout holds := by
  rw [throughout_iff, noChildren]
  exact ⟨own, fun _ member => absurd member List.not_mem_nil⟩

theorem Throughout.self (all : node.Throughout holds) : holds node :=
  (throughout_iff.mp all).1

theorem Throughout.child (all : node.Throughout holds) (member : inner ∈ node.children) :
    inner.Throughout holds :=
  (throughout_iff.mp all).2 inner member

theorem length_walk_lt (member : inner ∈ node.children) :
    inner.walk.length < node.walk.length := by
  obtain ⟨left, right, split⟩ := List.append_of_mem member
  rw [walk_eq node, split]
  simp only [List.flatMap_append, List.flatMap_cons, List.length_cons, List.length_append]
  omega

/-- What a node passes on to its children holds throughout its tree. -/
theorem throughout_of_inherited {claim : Node → Prop} (own : ∀ node, claim node → holds node)
    (inherited : ∀ node, claim node → ∀ child ∈ node.children, claim child)
    (claimed : claim node) : node.Throughout holds := by
  induction size : node.walk.length using Nat.strongRecOn generalizing node with
  | _ size inductionHypothesis =>
      refine throughout_iff.mpr ⟨own node claimed, fun child member => ?_⟩
      have smaller := length_walk_lt member
      exact inductionHypothesis _ (size ▸ smaller) (inherited node claimed child member) rfl

end Node

/-! ## Complete trees -/

namespace Node

/-- Every mandatory part of a node is there. -/
def IsComplete : Node → Prop
  | .expr value => value.Complete
  | .entry value => value.Complete
  | .stmt value => value.Complete

@[simp]
theorem isComplete_expr (value : Expr) : (expr value).IsComplete ↔ value.Complete :=
  Iff.rfl

@[simp]
theorem isComplete_entry (value : Entry) : (entry value).IsComplete ↔ value.Complete :=
  Iff.rfl

@[simp]
theorem isComplete_stmt (value : Stmt) : (stmt value).IsComplete ↔ value.Complete :=
  Iff.rfl

theorem isComplete_variable {names : List Variable} {child : Node}
    (member : child ∈ variableNodes names) : child.IsComplete := by
  obtain ⟨name, _, rfl⟩ := List.mem_map.mp member
  exact Expr.Complete.var name

theorem isComplete_root {body : Body} (complete : body.Complete) : body.root.IsComplete := by
  cases complete with
  | expr value => exact value
  | block statements => exact Stmt.Complete.block statements

theorem IsComplete.child {node : Node} (complete : node.IsComplete) :
    ∀ child ∈ node.children, child.IsComplete := by
  cases node with
  | expr value =>
      cases complete with
      | @range _ _ step => cases step <;> simp_all [children]
      | function body =>
          have root := isComplete_root body
          intro child member
          rcases List.mem_append.mp member with isParam | isBody
          · exact isComplete_variable isParam
          · rwa [List.mem_singleton.mp isBody]
      | member owner => exact List.forall_mem_cons.mpr ⟨owner, by simp [Expr.Complete.identifier]⟩
      | matrix _ cells =>
          intro child member
          obtain ⟨cell, isCell, rfl⟩ := List.mem_map.mp member
          obtain ⟨row, isRow, inRow⟩ := List.mem_flatten.mp isCell
          exact cells row isRow cell inRow
      | markup _ tag attributes others =>
          intro child member
          simp only [children, List.mem_cons, List.mem_append, List.mem_map] at member
          rcases member with rfl | ⟨entry, isEntry, rfl⟩ | ⟨other, isOther, rfl⟩
          · exact tag
          · exact attributes entry isEntry
          · exact others other isOther
      | _ => simp_all [children]
  | entry value => cases complete <;> simp_all [children]
  | stmt value =>
      cases complete with
      | expr value => simpa [children] using value
      | block body =>
          cases body with
          | mk statements => simpa [children] using statements
      | @ifThen _ _ _ other test whenTrue _ whenFalse =>
          have block := Stmt.Complete.block whenTrue
          cases other <;> simp_all [children]
      | whileDo test body =>
          have block := Stmt.Complete.block body
          simp_all [children]
      | @forIn _ key value _ _ _ source body =>
          have block := Stmt.Complete.block body
          intro child member
          simp only [children, List.mem_append] at member
          rcases member with (isKey | isValue) | isRest
          · exact isComplete_variable isKey
          · exact isComplete_variable isValue
          · revert child
            simp_all
      | @returnValue _ result value => cases result <;> simp_all [children]
      | jump _ _ => simp [children]
      | @letIn _ name initial value =>
          have isName := Expr.Complete.var name
          cases initial <;> simp_all [children]

/-- The target of an assignment is a variable, a member or a call, and the rows of a matrix have
cells. -/
def IsFilled : Node → Prop
  | .expr (.assignment _ target _) => target.isAssignable = true
  | .expr (.matrix _ rows) => ∀ row ∈ rows, row ≠ []
  | _ => True

theorem IsComplete.isFilled {node : Node} (complete : node.IsComplete) : node.IsFilled := by
  unfold IsFilled
  split
  · cases complete with
    | assignment assignable _ _ => exact assignable
  · cases complete with
    | matrix filled _ => exact filled
  · trivial

end Node

/-! ## Templates -/

namespace Lexeme

/-- Each template of a source, also within another one, has one part more than replacements. -/
def AllEven (source : List Lexeme) : Prop :=
  ∀ lexeme : Lexeme, lexeme.Occurs source → lexeme.token = .template →
    lexeme.parts.length = lexeme.subs.length + 1

variable {source : List UInt8} {position : Position} {high : Nat} {lexemes : List Lexeme}

theorem Tiles.length_parts (tiles : Tiles source position lexemes high) {lexeme : Lexeme}
    (member : lexeme ∈ lexemes) (isTemplate : lexeme.token = .template) :
    lexeme.parts.length = lexeme.subs.length + 1 := by
  induction lexemes generalizing position with
  | nil => cases member
  | cons first rest inductionHypothesis =>
      cases tiles with
      | last isEnd _ =>
          rw [List.mem_singleton.mp member, isEnd] at isTemplate
          cases isTemplate
      | cons _ _ _ parts _ others =>
          rcases List.mem_cons.mp member with rfl | later
          · exact parts isTemplate
          · exact inductionHypothesis others later

theorem Tiles.allEven (tiles : Tiles source position lexemes high) : AllEven lexemes := by
  intro lexeme occurs isTemplate
  induction occurs generalizing position high with
  | here member => exact tiles.length_parts member isTemplate
  | @inside _ _ outer member hasSubs isSub _ inductionHypothesis =>
      have more : outer.token ≠ .eof := by simp [hasSubs]
      obtain ⟨_, _, inside⟩ := tiles.member member more
      obtain ⟨_, _, own, _⟩ := inside.stream isSub
      exact inductionHypothesis own

theorem allEven_scan (file : String) (bytes : List UInt8) : AllEven (scan file bytes) :=
  (tiles_scanFrom {} (Position.Holds.decode file bytes) (Nat.lt_succ_self _)).allEven

end Lexeme

namespace Node

/-- A template string has one part more than replacements. -/
def IsBalanced : Node → Prop
  | .expr (.interpolated _ parts replacements) => parts.length = replacements.length + 1
  | _ => True

theorem isBalanced_of_isComposite {node : Node} (composite : node.isComposite = true) :
    node.IsBalanced := by
  unfold IsBalanced
  split
  · cases composite
  · trivial

theorem balanced_of_isComposite {node : Node} (composite : node.isComposite = true)
    (children : ∀ child ∈ node.children, child.Throughout IsBalanced) :
    node.Throughout IsBalanced :=
  throughout_iff.mpr ⟨isBalanced_of_isComposite composite, children⟩

theorem balanced_variable {names : List Variable} {child : Node}
    (member : child ∈ variableNodes names) : child.Throughout IsBalanced := by
  obtain ⟨name, _, rfl⟩ := List.mem_map.mp member
  exact throughout_of_leaf trivial rfl

end Node

open ParseState Node

namespace ParseState

/-- What is left to be read occurs in a source. -/
def ReadsFrom (state : ParseState) (source : List Lexeme) : Prop :=
  ∀ lexeme ∈ state.cursor.ahead, lexeme.Occurs source

variable {state after : ParseState} {source : List Lexeme}

theorem ReadsFrom.advance (reads : state.ReadsFrom source) : state.advance.ReadsFrom source :=
  fun lexeme member => reads lexeme (List.mem_of_mem_tail member)

theorem ReadsFrom.skips (reads : state.ReadsFrom source) (skips : Skips state after) :
    after.ReadsFrom source := by
  induction skips with
  | refl => exact reads
  | more _ inductionHypothesis => exact inductionHypothesis.advance

theorem readsFrom_start {stream : List Lexeme} (occurs : ∀ lexeme ∈ stream, lexeme.Occurs source)
    (scope : Scope) : (start stream scope).ReadsFrom source := by
  intro lexeme member
  have taken := (List.mem_filter.mp member).1
  exact occurs lexeme ((List.takeWhile_sublist _).subset taken)

end ParseState

/-- What is read from a source is balanced, and the streams of a template give a tree each. -/
def Reading.Balances (source : List Lexeme) : Reading → List Node → Prop
  | lexemes first second, trees => first.ReadsFrom source →
    second.ReadsFrom source ∧ ∀ tree ∈ trees, tree.Throughout Node.IsBalanced
  | streams _ subs _, trees => (∀ stream ∈ subs, ∀ lexeme ∈ stream, lexeme.Occurs source) →
    trees.length = subs.length ∧ ∀ tree ∈ trees, tree.Throughout Node.IsBalanced

namespace Reading

variable {source : List Lexeme} {first second : ParseState} {node : Node}

theorem balances_leaf (reads : first.ReadsFrom source → second.ReadsFrom source)
    (own : node.IsBalanced) (noChildren : node.children = []) :
    (lexemes first second).Balances source [node] := by
  intro begins
  exact ⟨reads begins, List.forall_mem_singleton.mpr (throughout_of_leaf own noChildren)⟩

/-- A last leaf in place of another one. -/
theorem balances_longer (trees : List Node) {longer : Node}
    (balances : (lexemes first second).Balances source (trees ++ [node])) (own : longer.IsBalanced)
    (noChildren : longer.children = []) :
    (lexemes first second.advance).Balances source (trees ++ [longer]) := by
  intro begins
  obtain ⟨reads, balanced⟩ := balances begins
  refine ⟨reads.advance, List.forall_mem_append.mpr ⟨(List.forall_mem_append.mp balanced).1, ?_⟩⟩
  exact List.forall_mem_singleton.mpr (throughout_of_leaf own noChildren)

end Reading

open Reading

/-- Everything but a template is balanced if its parts are, and a template has as many trees as its
lexeme has streams. -/
theorem Derives.balances {reading : Reading} {trees : List Node} (derived : Derives reading trees)
    {source : List Lexeme} (even : Lexeme.AllEven source) : reading.Balances source trees := by
  induction derived with
  | nothing _ => exact fun reads => ⟨reads, fun _ member => absurd member List.not_mem_nil⟩
  | sequence _ _ leftHypothesis rightHypothesis =>
      intro reads
      obtain ⟨between, left⟩ := leftHypothesis reads
      obtain ⟨after, right⟩ := rightHypothesis between
      exact ⟨after, List.forall_mem_append.mpr ⟨left, right⟩⟩
  | sign _ => exact fun reads => ⟨reads.advance, fun _ member => absurd member List.not_mem_nil⟩
  | constant | read | declare | identifier =>
      exact balances_leaf (fun reads => ReadsFrom.advance reads) trivial rfl
  | word _ _ _ inductionHypothesis => exact balances_longer _ inductionHypothesis trivial rfl
  | path _ _ _ inductionHypothesis => exact balances_longer [] inductionHypothesis trivial rfl
  | empty | missing | missingEntry => exact balances_leaf id trivial rfl
  | badEntry => exact balances_leaf (fun reads => ReadsFrom.advance reads) trivial rfl
  | omitted _ inductionHypothesis =>
      intro reads
      obtain ⟨after, balanced⟩ := inductionHypothesis reads
      exact ⟨after, (List.forall_mem_append.mp balanced).1⟩
  | bad _ _ inductionHypothesis =>
      exact balances_leaf (fun reads => (inductionHypothesis reads).1.advance) trivial rfl
  | spoilt _ _ skips _ inductionHypothesis =>
      exact balances_leaf (fun reads => (inductionHypothesis reads).1.skips skips) trivial rfl
  | spoiltEntry _ skips => exact balances_leaf (fun reads => (reads.skips skips).advance) trivial rfl
  | node _ _ composite _ inductionHypothesis =>
      intro reads
      obtain ⟨after, balanced⟩ := inductionHypothesis reads
      exact ⟨after, List.forall_mem_singleton.mpr (balanced_of_isComposite composite balanced)⟩
  | enclosed _ _ composite _ inductionHypothesis =>
      intro reads
      obtain ⟨after, balanced⟩ := inductionHypothesis reads.advance
      exact ⟨after, List.forall_mem_singleton.mpr (balanced_of_isComposite composite balanced)⟩
  | property _ _ inductionHypothesis =>
      intro reads
      obtain ⟨after, balanced⟩ := inductionHypothesis reads.advance
      exact ⟨after, List.forall_mem_singleton.mpr (balanced_of_isComposite rfl balanced)⟩
  | @compound _ _ _ op target value _ _ inductionHypothesis =>
      intro reads
      obtain ⟨after, balanced⟩ := inductionHypothesis reads
      have join : (Node.expr (Expr.join op target value)).Throughout IsBalanced :=
        balanced_of_isComposite rfl balanced
      refine ⟨after, List.forall_mem_singleton.mpr (balanced_of_isComposite rfl ?_)⟩
      exact List.forall_mem_cons.mpr ⟨balanced _ (.head _), List.forall_mem_singleton.mpr join⟩
  | function _ _ _ _ _ headHypothesis bodyHypothesis =>
      intro reads
      obtain ⟨after, balanced⟩ := bodyHypothesis (headHypothesis reads).1.advance
      refine ⟨after, List.forall_mem_singleton.mpr (throughout_iff.mpr ⟨trivial, ?_⟩)⟩
      exact List.forall_mem_append.mpr ⟨fun _ isParam => balanced_variable isParam, balanced⟩
  | spoiltFunction _ _ _ _ headHypothesis bodyHypothesis =>
      exact balances_leaf (fun reads => (bodyHypothesis (headHypothesis reads).1.advance).1) trivial rfl
  | @template state trees _ isTemplate _ inductionHypothesis =>
      intro reads
      have more : state.token ≠ .eof := by simp [isTemplate]
      have occurs := reads _ (current_mem_ahead more)
      obtain ⟨same, balanced⟩ := inductionHypothesis fun stream isSub lexeme member =>
        occurs.sub isTemplate isSub member
      have parts : state.cursor.current.parts.length = trees.length + 1 := by
        rw [even _ occurs isTemplate, ← same, List.length_map]
      refine ⟨reads.advance, List.forall_mem_singleton.mpr (throughout_iff.mpr ⟨parts, balanced⟩)⟩
  | noStreams => exact fun _ => ⟨rfl, fun _ member => absurd member List.not_mem_nil⟩
  | stream _ _ firstHypothesis restHypothesis =>
      intro occurs
      obtain ⟨first, others⟩ := List.forall_mem_cons.mp occurs
      obtain ⟨_, balanced⟩ := firstHypothesis (readsFrom_start first _)
      obtain ⟨same, rest⟩ := restHypothesis others
      exact ⟨congrArg (· + 1) same, List.forall_mem_cons.mpr ⟨balanced _ (.head _), rest⟩⟩
  | element _ isTag _ closes _ inductionHypothesis =>
      intro reads
      obtain ⟨after, balanced⟩ := inductionHypothesis reads.advance
      refine ⟨after.skips closes.skips, List.forall_mem_singleton.mpr (balanced_of_isComposite rfl ?_)⟩
      exact isTag.forall_mem (fun _ => throughout_of_leaf trivial rfl) balanced
  | @letIn _ _ _ _ value _ _ _ inductionHypothesis =>
      intro reads
      obtain ⟨after, balanced⟩ := inductionHypothesis reads
      refine ⟨after, List.forall_mem_singleton.mpr (throughout_iff.mpr ⟨trivial, ?_⟩)⟩
      cases value <;> exact balanced
  | loop _ _ skips _ _ headHypothesis bodyHypothesis =>
      intro reads
      obtain ⟨between, head⟩ := headHypothesis reads
      obtain ⟨after, body⟩ := bodyHypothesis (between.skips skips)
      have balanced := List.forall_mem_append.mpr ⟨head, body⟩
      refine ⟨after, List.forall_mem_singleton.mpr (throughout_iff.mpr ⟨trivial, ?_⟩)⟩
      simpa [Node.children] using balanced

/-! ## Whole sources -/

theorem filled_parseExpression (number : Nat) (text : String) :
    (Node.expr (parseExpression number text)).Throughout IsFilled := by
  obtain ⟨⟨_, _, _, same, complete, _⟩, _⟩ := parse_total number (Lexeme.scanText text)
  refine throughout_of_inherited (fun _ => IsComplete.isFilled) (fun _ => IsComplete.child) ?_
  rw [isComplete_expr, parseExpression, same]
  exact complete

theorem filled_parseProgram (number : Nat) (file : String) (bytes : List UInt8) {tree : Stmt}
    (member : tree ∈ parseProgram number file bytes) :
    (Node.stmt tree).Throughout IsFilled := by
  obtain ⟨_, ⟨_, _, _, same, complete, _⟩, _⟩ := parse_total number (Lexeme.scan file bytes)
  rw [parseProgram, same] at member
  have isComplete : (Node.stmt tree).IsComplete := complete tree member
  exact throughout_of_inherited (fun _ => IsComplete.isFilled) (fun _ => IsComplete.child) isComplete

theorem balanced_parseExpression (number : Nat) (text : String) :
    (Node.expr (parseExpression number text)).Throughout IsBalanced := by
  obtain ⟨_, built, _⟩ := Parsed.expression_builds number (Lexeme.scanText text)
  have balances := built.balances (Lexeme.allEven_scan _ _) (readsFrom_start (fun _ => .here) _)
  exact balances.2 _ (.head _)

theorem balanced_parseProgram (number : Nat) (file : String) (bytes : List UInt8) {tree : Stmt}
    (member : tree ∈ parseProgram number file bytes) :
    (Node.stmt tree).Throughout IsBalanced := by
  obtain ⟨_, built, _⟩ := Parsed.statements_build number (Lexeme.scan file bytes)
  have balances := built.balances (Lexeme.allEven_scan _ _) (readsFrom_start (fun _ => .here) _)
  exact balances.2 _ (List.mem_map_of_mem member)

end Reckon
