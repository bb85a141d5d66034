import Reckon.Proofs.Session.Regime

/-!
# What walks visit

A walk that goes everywhere visits what any other walk of the tree visits, and with each node all that
is below it.  So it visits the body of every function that a node creates.
-/

namespace Reckon

/-- Everything that a walk from a node can visit. -/
def Node.nodes : Node → List Node
  | .expr value => value.visit fun _ => true
  | .entry value => value.visit fun _ => true
  | .stmt value => value.visit fun _ => true

/-- The nodes of a walk are among those of a walk that goes everywhere. -/
structure Walks (visited all : List Node) : Prop where
  subset : visited ⊆ all
  closed : ∀ node ∈ all, node.nodes ⊆ all

section Combinators

variable {descend : Node → Bool} {visited all visitedRight allRight : List Node} {node : Node}

theorem walks_nil : Walks [] [] :=
  ⟨List.Subset.refl _, fun _ member => by cases member⟩

theorem Walks.append (left : Walks visited all) (right : Walks visitedRight allRight) :
    Walks (visited ++ visitedRight) (all ++ allRight) := by
  constructor
  · exact List.append_subset.mpr ⟨List.subset_append_of_subset_left _ left.subset,
      List.subset_append_of_subset_right _ right.subset⟩
  · intro node member
    rcases List.mem_append.mp member with isLeft | isRight
    · exact List.subset_append_of_subset_left _ (left.closed node isLeft)
    · exact List.subset_append_of_subset_right _ (right.closed node isRight)

theorem Walks.above (nodes : node.nodes = node.above (fun _ => true) all)
    (below : Walks visited all) :
    Walks (node.above descend visited) (node.above (fun _ => true) all) := by
  have whole : node.above (fun _ => true) all = node :: all := rfl
  constructor
  · rw [whole, Node.above]
    refine List.cons_subset_cons node ?_
    split
    · exact below.subset
    · exact List.nil_subset all
  · intro inner member
    rw [whole] at member
    rcases List.mem_cons.mp member with rfl | isBelow
    · rw [nodes]
      exact List.Subset.refl _
    · rw [whole]
      exact List.subset_cons_of_subset node (below.closed inner isBelow)

theorem walks_leaf (nodes : node.nodes = [node]) : Walks [node] [node] := by
  constructor
  · exact List.Subset.refl _
  · intro inner member
    rw [List.mem_singleton.mp member, nodes]
    exact List.Subset.refl _

theorem walks_variableNodes (names : List Variable) :
    Walks (variableNodes names) (variableNodes names) := by
  constructor
  · exact List.Subset.refl _
  · intro inner member
    obtain ⟨name, _, rfl⟩ := List.mem_map.mp member
    rw [Node.nodes, Expr.visit]
    exact List.cons_subset.mpr ⟨member, List.nil_subset _⟩

end Combinators

section Trees

variable (descend : Node → Bool)

mutual

theorem Expr.walks_visit :
    ∀ tree : Expr, Walks (tree.visit descend) (tree.visit fun _ => true)
  | .empty _ => by
      rw [Expr.visit, Expr.visit]
      exact walks_leaf (by rw [Node.nodes, Expr.visit])
  | .invalid _ _ => by
      rw [Expr.visit, Expr.visit]
      exact walks_leaf (by rw [Node.nodes, Expr.visit])
  | .constant _ _ => by
      rw [Expr.visit, Expr.visit]
      exact walks_leaf (by rw [Node.nodes, Expr.visit])
  | .var _ => by
      rw [Expr.visit, Expr.visit]
      exact walks_leaf (by rw [Node.nodes, Expr.visit])
  | .identifier _ => by
      rw [Expr.visit, Expr.visit]
      exact walks_leaf (by rw [Node.nodes, Expr.visit])
  | .binary _ _ left right _ => by
      have below := (Expr.walks_visit left).append (Expr.walks_visit right)
      rw [Expr.visit, Expr.visit]
      exact below.above (by rw [Node.nodes, Expr.visit])
  | .unary _ _ operand => by
      rw [Expr.visit, Expr.visit]
      exact (Expr.walks_visit operand).above (by rw [Node.nodes, Expr.visit])
  | .factorial _ operand => by
      rw [Expr.visit, Expr.visit]
      exact (Expr.walks_visit operand).above (by rw [Node.nodes, Expr.visit])
  | .range _ first none last => by
      have below := (Expr.walks_visit first).append (Expr.walks_visit last)
      rw [Expr.visit, Expr.visit]
      exact below.above (by rw [Node.nodes, Expr.visit])
  | .range _ first (some step) last => by
      have below := ((Expr.walks_visit first).append (Expr.walks_visit step)).append (Expr.walks_visit last)
      rw [Expr.visit, Expr.visit]
      exact below.above (by rw [Node.nodes, Expr.visit])
  | .conditional _ test whenTrue whenFalse => by
      have below := ((Expr.walks_visit test).append (Expr.walks_visit whenTrue)).append
        (Expr.walks_visit whenFalse)
      rw [Expr.visit, Expr.visit]
      exact below.above (by rw [Node.nodes, Expr.visit])
  | .call _ callee args => by
      have below := (Expr.walks_visit callee).append (Expr.walks_visitAll args)
      rw [Expr.visit, Expr.visit]
      exact below.above (by rw [Node.nodes, Expr.visit])
  | .arguments _ items => by
      rw [Expr.visit, Expr.visit]
      exact (Expr.walks_visitAll items).above (by rw [Node.nodes, Expr.visit])
  | .matrix _ rows => by
      rw [Expr.visit, Expr.visit]
      exact (Expr.walks_visitRows rows).above (by rw [Node.nodes, Expr.visit])
  | .object _ entries => by
      rw [Expr.visit, Expr.visit]
      exact (Entry.walks_visitAll entries).above (by rw [Node.nodes, Expr.visit])
  | .function _ _ params body => by
      have below := (walks_variableNodes params).append (Body.walks_visit body)
      rw [Expr.visit, Expr.visit]
      exact below.above (by rw [Node.nodes, Expr.visit])
  | .member _ owner selector => by
      have name : Walks [.expr (.identifier selector)] [.expr (.identifier selector)] :=
        walks_leaf (by rw [Node.nodes, Expr.visit])
      rw [Expr.visit, Expr.visit]
      exact ((Expr.walks_visit owner).append name).above (by rw [Node.nodes, Expr.visit])
  | .assignment _ target value => by
      have below := (Expr.walks_visit target).append (Expr.walks_visit value)
      rw [Expr.visit, Expr.visit]
      exact below.above (by rw [Node.nodes, Expr.visit])
  | .interpolated _ _ replacements => by
      rw [Expr.visit, Expr.visit]
      exact (Expr.walks_visitAll replacements).above (by rw [Node.nodes, Expr.visit])
  | .markup _ tag attributes children => by
      have below := ((Expr.walks_visit tag).append (Entry.walks_visitAll attributes)).append
        (Expr.walks_visitAll children)
      rw [Expr.visit, Expr.visit]
      exact below.above (by rw [Node.nodes, Expr.visit])

theorem Expr.walks_visitAll :
    ∀ trees : List Expr, Walks (Expr.visitAll descend trees) (Expr.visitAll (fun _ => true) trees)
  | [] => by
      rw [Expr.visitAll, Expr.visitAll]
      exact walks_nil
  | first :: rest => by
      rw [Expr.visitAll, Expr.visitAll]
      exact (Expr.walks_visit first).append (Expr.walks_visitAll rest)

theorem Expr.walks_visitRows :
    ∀ rows : List (List Expr), Walks (Expr.visitRows descend rows) (Expr.visitRows (fun _ => true) rows)
  | [] => by
      rw [Expr.visitRows, Expr.visitRows]
      exact walks_nil
  | row :: rest => by
      rw [Expr.visitRows, Expr.visitRows]
      exact (Expr.walks_visitAll row).append (Expr.walks_visitRows rest)

theorem Entry.walks_visit :
    ∀ entry : Entry, Walks (entry.visit descend) (entry.visit fun _ => true)
  | .property _ _ value => by
      rw [Entry.visit, Entry.visit]
      exact (Expr.walks_visit value).above (by rw [Node.nodes, Entry.visit])
  | .invalid _ _ => by
      rw [Entry.visit, Entry.visit]
      exact walks_leaf (by rw [Node.nodes, Entry.visit])

theorem Entry.walks_visitAll :
    ∀ entries : List Entry, Walks (Entry.visitAll descend entries) (Entry.visitAll (fun _ => true) entries)
  | [] => by
      rw [Entry.visitAll, Entry.visitAll]
      exact walks_nil
  | first :: rest => by
      rw [Entry.visitAll, Entry.visitAll]
      exact (Entry.walks_visit first).append (Entry.walks_visitAll rest)

theorem Body.walks_visit :
    ∀ body : Body, Walks (body.visit descend) (body.visit fun _ => true)
  | .expr value => by
      rw [Body.visit, Body.visit]
      exact Expr.walks_visit value
  | .block statements => by
      rw [Body.visit, Body.visit]
      exact Block.walks_visit statements

theorem Block.walks_visit :
    ∀ block : Block, Walks (block.visit descend) (block.visit fun _ => true)
  | .mk _ statements => by
      rw [Block.visit, Block.visit]
      exact (Stmt.walks_visitAll statements).above (by rw [Node.nodes, Stmt.visit, Block.visit])

theorem Stmt.walks_visit :
    ∀ tree : Stmt, Walks (tree.visit descend) (tree.visit fun _ => true)
  | .expr value => by
      rw [Stmt.visit, Stmt.visit]
      exact (Expr.walks_visit value).above (by rw [Node.nodes, Stmt.visit])
  | .block body => by
      rw [Stmt.visit, Stmt.visit]
      exact Block.walks_visit body
  | .ifThen _ test whenTrue none => by
      have below := (Expr.walks_visit test).append (Block.walks_visit whenTrue)
      rw [Stmt.visit, Stmt.visit]
      exact below.above (by rw [Node.nodes, Stmt.visit])
  | .ifThen _ test whenTrue (some whenFalse) => by
      have below := ((Expr.walks_visit test).append (Block.walks_visit whenTrue)).append
        (Stmt.walks_visit whenFalse)
      rw [Stmt.visit, Stmt.visit]
      exact below.above (by rw [Node.nodes, Stmt.visit])
  | .whileDo _ test body => by
      have below := (Expr.walks_visit test).append (Block.walks_visit body)
      rw [Stmt.visit, Stmt.visit]
      exact below.above (by rw [Node.nodes, Stmt.visit])
  | .forIn _ key value source body => by
      have names := (walks_variableNodes key.toList).append (walks_variableNodes value.toList)
      have below := (names.append (Expr.walks_visit source)).append (Block.walks_visit body)
      rw [Stmt.visit, Stmt.visit]
      exact below.above (by rw [Node.nodes, Stmt.visit])
  | .returnValue _ none => by
      rw [Stmt.visit, Stmt.visit]
      exact walks_leaf (by rw [Node.nodes, Stmt.visit])
  | .returnValue _ (some result) => by
      rw [Stmt.visit, Stmt.visit]
      exact (Expr.walks_visit result).above (by rw [Node.nodes, Stmt.visit])
  | .jump _ _ => by
      rw [Stmt.visit, Stmt.visit]
      exact walks_leaf (by rw [Node.nodes, Stmt.visit])
  | .letIn _ name none => by
      rw [Stmt.visit, Stmt.visit]
      exact (walks_variableNodes [name]).above (by rw [Node.nodes, Stmt.visit])
  | .letIn _ name (some value) => by
      have below := (walks_variableNodes [name]).append (Expr.walks_visit value)
      rw [Stmt.visit, Stmt.visit]
      exact below.above (by rw [Node.nodes, Stmt.visit])

theorem Stmt.walks_visitAll :
    ∀ trees : List Stmt, Walks (Stmt.visitAll descend trees) (Stmt.visitAll (fun _ => true) trees)
  | [] => by
      rw [Stmt.visitAll, Stmt.visitAll]
      exact walks_nil
  | first :: rest => by
      rw [Stmt.visitAll, Stmt.visitAll]
      exact (Stmt.walks_visit first).append (Stmt.walks_visitAll rest)

end

end Trees

/-! ## Bodies of functions -/

/-- Everything in the body of a function. -/
def Body.nodes (body : Body) : List Node :=
  body.visit fun _ => true

theorem Node.nodes_of_created {node : Node} {params : List String} {static : Option FrameId}
    {body : Body} (created : node.created? = some (params, static, body)) :
    body.nodes ⊆ node.nodes := by
  unfold created? at created
  split at created
  · cases created
    rw [nodes, Expr.visit]
    exact List.subset_cons_of_subset _ (List.subset_append_right ..)
  · split at created
    · cases created
      rw [nodes, Expr.visit, Body.nodes, Body.visit]
      exact List.subset_cons_of_subset _ (List.subset_append_right ..)
    · cases created
  · cases created

/-- A node of a function is in its body, and so is what is inside of the node. -/
theorem Body.nodes_of_mem_visit {body : Body} {node : Node} (member : node ∈ body.visit Node.stays) :
    node.nodes ⊆ body.nodes := by
  have walks := body.walks_visit Node.stays
  exact walks.closed node (walks.subset member)

end Reckon
