import Reckon.Operator.Arithmetic

/-!
# Sorting and extremes

Elements are compared with the operators of the language, which may leave a pair undecided; an
undecided pair counts as not in order. Sorting is stable.
-/

namespace Reckon.Library

/-- Whether the operator holds of two values, unless following them has no end. What it puts into the
store is dropped. -/
def holds (store : Store) (op : Cascade) (x y : Value) : Option Bool :=
  let (result, after) := (op.apply x y).run.run store
  result.map after.isTruthy

/-! ## Stable sorting

Blocks of a fixed length are sorted by insertion, and neighbouring blocks are merged until one is
left. An order that leaves pairs undecided need not be transitive, and then the result depends on
which pairs are compared, so the comparisons are part of what sorting means here. A comparison that
has no end is the last one. -/

section Sorting

variable {α : Type}

/-- Put an element into a list that runs backwards: it goes behind all elements that it comes
before. -/
def insertBackwards (before : α → α → Option Bool) (x : α) : List α → Option (List α)
  | [] => return [x]
  | y :: rest => do
    if ← before x y then return y :: (← insertBackwards before x rest) else return x :: y :: rest

/-- A list sorted by insertion. -/
def insertionSort (before : α → α → Option Bool) (items : List α) : Option (List α) := do
  let sorted ← items.foldlM (fun sorted x => insertBackwards before x sorted) []
  return sorted.reverse

/-- Search by halving: the least number from `low` on, below `high`, that passes a test which is
passed from some point on, or `high`. -/
def bisect (test : Nat → Option Bool) (low high : Nat) : Option Nat := do
  if low < high then
    let middle := (low + high) / 2
    if ← test middle then bisect test low middle else bisect test (middle + 1) high
  else return low
termination_by high - low

/-- Whether the element at a place of one list comes before the element at a place of another. -/
def precedesAt (before : α → α → Option Bool) (left : List α) (i : Nat) (right : List α) (j : Nat) :
    Option Bool :=
  match left[i]?, right[j]? with
  | some x, some y => before x y
  | _, _ => return false

/-- How many elements of `left` stand in the first half of the two lists merged; the others in that
half come from `right`. -/
def mergeCut (before : α → α → Option Bool) (left right : List α) : Option Nat :=
  let half := (left.length + right.length) / 2
  bisect (fun count => precedesAt before right (half - 1 - count) left count)
    (half - right.length) (min half left.length)

/-- Two sorted lists merged into one. A single element is put into its place. Longer lists are cut
so that their first parts make the first half of the result, and the halves are merged. The first
argument bounds the number of cuts. -/
def symmetricMerge (before : α → α → Option Bool) : Nat → List α → List α → Option (List α)
  | 0, left, right => return left ++ right
  | _ + 1, [], right => return right
  | _ + 1, left, [] => return left
  | _ + 1, [x], right => do
    let place ← bisect (fun i => do return !(← precedesAt before right i [x] 0)) 0 right.length
    return right.take place ++ x :: right.drop place
  | _ + 1, left, [y] => do
    let place ← bisect (fun i => precedesAt before [y] 0 left i) 0 left.length
    return left.take place ++ y :: left.drop place
  | bound + 1, left, right => do
    let cut ← mergeCut before left right
    let rest := (left.length + right.length) / 2 - cut
    let first ← symmetricMerge before bound (left.take cut) (right.take rest)
    let second ← symmetricMerge before bound (left.drop cut) (right.drop rest)
    return first ++ second

/-- Two sorted lists merged into one. Every cut halves their length. -/
def merge (before : α → α → Option Bool) (left right : List α) : Option (List α) :=
  symmetricMerge before (left.length + right.length) left right

/-- Neighbouring blocks merged in pairs. -/
def mergePairs (before : α → α → Option Bool) : List (List α) → Option (List (List α))
  | left :: right :: rest => do return (← merge before left right) :: (← mergePairs before rest)
  | blocks => return blocks

/-- Merge blocks in pairs until one is left. The first argument bounds the number of rounds. -/
def mergeRounds (before : α → α → Option Bool) : Nat → List (List α) → Option (List α)
  | 0, blocks => return blocks.flatten
  | _ + 1, [] => return []
  | _ + 1, [block] => return block
  | bound + 1, blocks => do mergeRounds before bound (← mergePairs before blocks)

/-- A list cut into blocks of a length. The first argument bounds the number of blocks. -/
def blocksOf (size : Nat) : Nat → List α → List (List α)
  | 0, _ => []
  | bound + 1, items =>
      if items.isEmpty then [] else items.take size :: blocksOf size bound (items.drop size)

/-- The length of the blocks that are sorted by insertion. -/
def blockLength : Nat := 20

/-- A list sorted by a strict order; elements of which none comes before the other keep their
order. -/
def sortStable (before : α → α → Option Bool) (items : List α) : Option (List α) := do
  let blocks ← (blocksOf blockLength items.length items).mapM (insertionSort before)
  mergeRounds before blocks.length blocks

/-- The element that no later one beats. -/
def best (beats : α → α → Option Bool) : List α → Option (Option α)
  | [] => return none
  | first :: rest => some <$> rest.foldlM (fun top x => do return if ← beats x top then x else top) first

end Sorting

/-! ## Collections -/

/-- The elements in increasing order: a row for a matrix, an array for a map. Anything else is its
own sorting. -/
def sort (value : Value) : FollowM Value := do
  let store ← get
  match store.elements? value with
  | none => return value
  | some elements =>
      let sorted ← (sortStable (holds store Operator.less) elements).getM
      match value with
      | .matrix _ => return Matrix.orNull (Matrix.rowVector? sorted)
      | _ => StoreM.newArray sorted

/-- The element of a collection that is least or greatest by an operator. Anything else is its own
extreme. -/
def extreme (op : Cascade) (value : Value) : FollowM Value := do
  let store ← get
  match store.elements? value with
  | none => return value
  | some elements => return (← (best (holds store op) elements).getM).getD .null

end Reckon.Library
