import Reckon.Tree.Basic
import Reckon.Tree.Node

/-!
# Moving trees

A relocation says where each place of a source goes.  It is extended here from places to trees.  What a
tree says, apart from its spans, stays as it is.  A tree whose places all go to one place is the tree up
to positions.
-/

namespace Reckon

/-- Where places go. -/
abbrev Relocation := Position → Position

/-- A span with both ends moved. -/
def Span.relocate (move : Relocation) (span : Span) : Span :=
  ⟨move span.start, move span.stop⟩

/-- A variable with its span moved. -/
def Variable.relocate (move : Relocation) (name : Variable) : Variable :=
  { name with span := name.span.relocate move }

/-- An identifier with its span moved. -/
def Identifier.relocate (move : Relocation) (name : Identifier) : Identifier :=
  { name with span := name.span.relocate move }

mutual

/-- An expression with its spans moved. -/
def Expr.relocate (move : Relocation) : Expr → Expr
  | .empty span => .empty (span.relocate move)
  | .invalid span defect => .invalid (span.relocate move) defect
  | .constant span value => .constant (span.relocate move) value
  | .var name => .var (name.relocate move)
  | .identifier name => .identifier (name.relocate move)
  | .binary span op left right implicit =>
      .binary (span.relocate move) op (left.relocate move) (right.relocate move) implicit
  | .unary span op operand => .unary (span.relocate move) op (operand.relocate move)
  | .factorial span operand => .factorial (span.relocate move) (operand.relocate move)
  | .range span first step last =>
      .range (span.relocate move) (first.relocate move) (Expr.relocate? move step) (last.relocate move)
  | .conditional span test whenTrue whenFalse =>
      .conditional (span.relocate move) (test.relocate move) (whenTrue.relocate move)
        (whenFalse.relocate move)
  | .call span callee args =>
      .call (span.relocate move) (callee.relocate move) (Expr.relocateAll move args)
  | .arguments span items => .arguments (span.relocate move) (Expr.relocateAll move items)
  | .matrix span rows => .matrix (span.relocate move) (Expr.relocateRows move rows)
  | .object span entries => .object (span.relocate move) (Entry.relocateAll move entries)
  | .function span frame params body =>
      .function (span.relocate move) frame (params.map (Variable.relocate move)) (body.relocate move)
  | .member span owner selector =>
      .member (span.relocate move) (owner.relocate move) (selector.relocate move)
  | .assignment span target value =>
      .assignment (span.relocate move) (target.relocate move) (value.relocate move)
  | .interpolated span parts replacements =>
      .interpolated (span.relocate move) parts (Expr.relocateAll move replacements)
  | .markup span tag attributes children =>
      .markup (span.relocate move) (tag.relocate move) (Entry.relocateAll move attributes)
        (Expr.relocateAll move children)

/-- An optional expression with its spans moved. -/
def Expr.relocate? (move : Relocation) : Option Expr → Option Expr
  | none => none
  | some tree => some (tree.relocate move)

/-- Expressions with their spans moved. -/
def Expr.relocateAll (move : Relocation) : List Expr → List Expr
  | [] => []
  | first :: rest => first.relocate move :: Expr.relocateAll move rest

/-- Rows of expressions with their spans moved. -/
def Expr.relocateRows (move : Relocation) : List (List Expr) → List (List Expr)
  | [] => []
  | row :: rest => Expr.relocateAll move row :: Expr.relocateRows move rest

/-- An entry with its spans moved. -/
def Entry.relocate (move : Relocation) : Entry → Entry
  | .property span key value => .property (span.relocate move) key (value.relocate move)
  | .invalid span defect => .invalid (span.relocate move) defect

/-- Entries with their spans moved. -/
def Entry.relocateAll (move : Relocation) : List Entry → List Entry
  | [] => []
  | first :: rest => first.relocate move :: Entry.relocateAll move rest

/-- A body with its spans moved. -/
def Body.relocate (move : Relocation) : Body → Body
  | .expr value => .expr (value.relocate move)
  | .block statements => .block (statements.relocate move)

/-- A block with its spans moved. -/
def Block.relocate (move : Relocation) : Block → Block
  | .mk span statements => .mk (span.relocate move) (Stmt.relocateAll move statements)

/-- A statement with its spans moved. -/
def Stmt.relocate (move : Relocation) : Stmt → Stmt
  | .expr value => .expr (value.relocate move)
  | .block body => .block (body.relocate move)
  | .ifThen span test whenTrue whenFalse =>
      .ifThen (span.relocate move) (test.relocate move) (whenTrue.relocate move)
        (Stmt.relocate? move whenFalse)
  | .whileDo span test body =>
      .whileDo (span.relocate move) (test.relocate move) (body.relocate move)
  | .forIn span key value source body =>
      .forIn (span.relocate move) (key.map (Variable.relocate move))
        (value.map (Variable.relocate move)) (source.relocate move) (body.relocate move)
  | .returnValue span result => .returnValue (span.relocate move) (Expr.relocate? move result)
  | .jump span kind => .jump (span.relocate move) kind
  | .letIn span name value =>
      .letIn (span.relocate move) (name.relocate move) (Expr.relocate? move value)

/-- An optional statement with its spans moved. -/
def Stmt.relocate? (move : Relocation) : Option Stmt → Option Stmt
  | none => none
  | some tree => some (tree.relocate move)

/-- Statements with their spans moved. -/
def Stmt.relocateAll (move : Relocation) : List Stmt → List Stmt
  | [] => []
  | first :: rest => first.relocate move :: Stmt.relocateAll move rest

end

/-- An expression up to positions: all its places are the same. -/
def Expr.unplaced (tree : Expr) : Expr :=
  tree.relocate fun _ => {}

variable {move : Relocation}

/-! ## Lists and options -/

namespace Expr

theorem relocate?_eq_map (tree : Option Expr) :
    relocate? move tree = tree.map (relocate move) := by
  cases tree <;> rfl

theorem relocateAll_eq_map (trees : List Expr) : relocateAll move trees = trees.map (relocate move) := by
  induction trees with
  | nil => rfl
  | cons first rest inductionHypothesis => rw [relocateAll, inductionHypothesis, List.map_cons]

theorem relocateRows_eq_map (rows : List (List Expr)) :
    relocateRows move rows = rows.map (List.map (relocate move)) := by
  induction rows with
  | nil => rfl
  | cons row rest inductionHypothesis =>
      rw [relocateRows, inductionHypothesis, relocateAll_eq_map, List.map_cons]

end Expr

theorem Entry.relocateAll_eq_map (entries : List Entry) :
    relocateAll move entries = entries.map (relocate move) := by
  induction entries with
  | nil => rfl
  | cons first rest inductionHypothesis => rw [relocateAll, inductionHypothesis, List.map_cons]

namespace Stmt

theorem relocate?_eq_map (tree : Option Stmt) :
    relocate? move tree = tree.map (relocate move) := by
  cases tree <;> rfl

theorem relocateAll_eq_map (trees : List Stmt) : relocateAll move trees = trees.map (relocate move) := by
  induction trees with
  | nil => rfl
  | cons first rest inductionHypothesis => rw [relocateAll, inductionHypothesis, List.map_cons]

end Stmt

/-! ## What stays as it is -/

namespace Expr

@[simp]
theorem span_relocate (tree : Expr) : (tree.relocate move).span = tree.span.relocate move := by
  cases tree <;> rfl

@[simp]
theorem isAssignable_relocate (tree : Expr) :
    (tree.relocate move).isAssignable = tree.isAssignable := by
  cases tree <;> rfl

@[simp]
theorem isEmpty_relocate (tree : Expr) : (tree.relocate move).isEmpty = tree.isEmpty := by
  cases tree <;> rfl

@[simp]
theorem isNumber_relocate : ∀ tree : Expr, (tree.relocate move).isNumber = tree.isNumber
  | .constant _ value => by
      cases value <;> rfl
  | .unary _ op operand => by
      have operandSame := isNumber_relocate operand
      cases op <;> simp [relocate, isNumber, operandSame]
  | .empty _ | .invalid .. | .var _ | .identifier _ | .binary .. | .factorial .. | .range ..
  | .conditional .. | .call .. | .arguments .. | .matrix .. | .object .. | .function .. | .member ..
  | .assignment .. | .interpolated .. | .markup .. => rfl

@[simp]
theorem tagPath_relocate : ∀ tree : Expr, (tree.relocate move).tagPath = tree.tagPath
  | .member _ owner selector => by
      rw [relocate, tagPath, tagPath, tagPath_relocate owner]
      rfl
  | .empty _ | .invalid .. | .constant .. | .var _ | .identifier _ | .binary .. | .unary ..
  | .factorial .. | .range .. | .conditional .. | .call .. | .arguments .. | .matrix ..
  | .object .. | .function .. | .assignment .. | .interpolated .. | .markup .. => rfl

end Expr

@[simp]
theorem Block.span_relocate (block : Block) : (block.relocate move).span = block.span.relocate move := by
  cases block
  rfl

@[simp]
theorem Body.span_relocate (body : Body) : (body.relocate move).span = body.span.relocate move := by
  cases body with
  | expr value => exact value.span_relocate
  | block statements => exact statements.span_relocate

/-! ## Moving twice -/

variable {first second : Relocation}

theorem Variable.relocate_comp : relocate second ∘ relocate first = relocate (second ∘ first) :=
  rfl

mutual

/-- To move a tree twice is to move it once. -/
theorem Expr.relocate_relocate : ∀ tree : Expr,
    (tree.relocate first).relocate second = tree.relocate (second ∘ first)
  | .empty _ | .invalid .. | .constant .. | .var _ | .identifier _ => rfl
  | .binary _ _ left right _ => by
      simp [Expr.relocate, Span.relocate, left.relocate_relocate, right.relocate_relocate]
  | .unary _ _ operand | .factorial _ operand => by
      simp [Expr.relocate, Span.relocate, operand.relocate_relocate]
  | .range _ low step high => by
      simp [Expr.relocate, Span.relocate, low.relocate_relocate, Expr.relocate?_relocate? step,
        high.relocate_relocate]
  | .conditional _ test whenTrue whenFalse => by
      simp [Expr.relocate, Span.relocate, test.relocate_relocate, whenTrue.relocate_relocate,
        whenFalse.relocate_relocate]
  | .call _ callee args => by
      simp [Expr.relocate, Span.relocate, callee.relocate_relocate, Expr.relocateAll_relocateAll args]
  | .arguments _ items => by
      simp [Expr.relocate, Span.relocate, Expr.relocateAll_relocateAll items]
  | .matrix _ rows => by
      simp [Expr.relocate, Span.relocate, Expr.relocateRows_relocateRows rows]
  | .object _ entries => by
      simp [Expr.relocate, Span.relocate, Entry.relocateAll_relocateAll entries]
  | .function _ _ params body => by
      simp [Expr.relocate, Span.relocate, Variable.relocate_comp, body.relocate_relocate]
  | .member _ owner _ => by
      simp [Expr.relocate, Span.relocate, Identifier.relocate, owner.relocate_relocate]
  | .assignment _ target value => by
      simp [Expr.relocate, Span.relocate, target.relocate_relocate, value.relocate_relocate]
  | .interpolated _ _ replacements => by
      simp [Expr.relocate, Span.relocate, Expr.relocateAll_relocateAll replacements]
  | .markup _ tag attributes children => by
      simp [Expr.relocate, Span.relocate, tag.relocate_relocate,
        Entry.relocateAll_relocateAll attributes, Expr.relocateAll_relocateAll children]

theorem Expr.relocate?_relocate? : ∀ tree : Option Expr,
    Expr.relocate? second (Expr.relocate? first tree) = Expr.relocate? (second ∘ first) tree
  | none => rfl
  | some tree => by simp [Expr.relocate?, tree.relocate_relocate]

theorem Expr.relocateAll_relocateAll : ∀ trees : List Expr,
    Expr.relocateAll second (Expr.relocateAll first trees) = Expr.relocateAll (second ∘ first) trees
  | [] => rfl
  | tree :: rest => by
      simp [Expr.relocateAll, tree.relocate_relocate, Expr.relocateAll_relocateAll rest]

theorem Expr.relocateRows_relocateRows : ∀ rows : List (List Expr),
    Expr.relocateRows second (Expr.relocateRows first rows) = Expr.relocateRows (second ∘ first) rows
  | [] => rfl
  | row :: rest => by
      simp [Expr.relocateRows, Expr.relocateAll_relocateAll row, Expr.relocateRows_relocateRows rest]

theorem Entry.relocate_relocate : ∀ entry : Entry,
    (entry.relocate first).relocate second = entry.relocate (second ∘ first)
  | .property _ _ value => by simp [Entry.relocate, Span.relocate, value.relocate_relocate]
  | .invalid .. => rfl

theorem Entry.relocateAll_relocateAll : ∀ entries : List Entry,
    Entry.relocateAll second (Entry.relocateAll first entries) =
      Entry.relocateAll (second ∘ first) entries
  | [] => rfl
  | entry :: rest => by
      simp [Entry.relocateAll, entry.relocate_relocate, Entry.relocateAll_relocateAll rest]

theorem Body.relocate_relocate : ∀ body : Body,
    (body.relocate first).relocate second = body.relocate (second ∘ first)
  | .expr value => by simp [Body.relocate, value.relocate_relocate]
  | .block statements => by simp [Body.relocate, statements.relocate_relocate]

theorem Block.relocate_relocate : ∀ block : Block,
    (block.relocate first).relocate second = block.relocate (second ∘ first)
  | .mk _ statements => by
      simp [Block.relocate, Span.relocate, Stmt.relocateAll_relocateAll statements]

theorem Stmt.relocate_relocate : ∀ tree : Stmt,
    (tree.relocate first).relocate second = tree.relocate (second ∘ first)
  | .expr value => by simp [Stmt.relocate, value.relocate_relocate]
  | .block body => by simp [Stmt.relocate, body.relocate_relocate]
  | .ifThen _ test whenTrue whenFalse => by
      simp [Stmt.relocate, Span.relocate, test.relocate_relocate, whenTrue.relocate_relocate,
        Stmt.relocate?_relocate? whenFalse]
  | .whileDo _ test body => by
      simp [Stmt.relocate, Span.relocate, test.relocate_relocate, body.relocate_relocate]
  | .forIn _ key value source body => by
      simp [Stmt.relocate, Span.relocate, Variable.relocate_comp, source.relocate_relocate,
        body.relocate_relocate]
  | .returnValue _ result => by
      simp [Stmt.relocate, Span.relocate, Expr.relocate?_relocate? result]
  | .jump .. => rfl
  | .letIn _ name value => by
      simp [Stmt.relocate, Span.relocate, Variable.relocate, Expr.relocate?_relocate? value]

theorem Stmt.relocate?_relocate? : ∀ tree : Option Stmt,
    Stmt.relocate? second (Stmt.relocate? first tree) = Stmt.relocate? (second ∘ first) tree
  | none => rfl
  | some tree => by simp [Stmt.relocate?, tree.relocate_relocate]

theorem Stmt.relocateAll_relocateAll : ∀ trees : List Stmt,
    Stmt.relocateAll second (Stmt.relocateAll first trees) = Stmt.relocateAll (second ∘ first) trees
  | [] => rfl
  | tree :: rest => by
      simp [Stmt.relocateAll, tree.relocate_relocate, Stmt.relocateAll_relocateAll rest]

end

/-- A tree is the same up to positions wherever it is moved. -/
@[simp]
theorem Expr.unplaced_relocate (tree : Expr) : (tree.relocate move).unplaced = tree.unplaced :=
  tree.relocate_relocate

end Reckon
