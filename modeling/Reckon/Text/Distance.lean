import Reckon.Text.CaseMap

/-!
# Similar names

Names that may have been meant: those that hold the letters of a given text in order, without regard
to case, and those that few edits lead to.
-/

namespace Reckon.Text

/-- The next row of the table of edit distances: `above` is the row before it, and `left` the entry
to the left of the next one. -/
def distanceRow (c : Char) : List Char → List Nat → Nat → List Nat
  | d :: target, diagonal :: up :: above, left =>
      let entry := min (min (up + 1) (left + 1)) (if c == d then diagonal else diagonal + 1)
      entry :: distanceRow c target (up :: above) entry
  | _, _, _ => []

/-- The least number of insertions, deletions and replacements of characters that lead from one text
to another. -/
def editDistance (source target : String) : Nat :=
  let targetChars := target.toList
  let first := List.range (targetChars.length + 1)
  let last := source.toList.foldl
    (fun (row, index) c => ((index + 1) :: distanceRow c targetChars row (index + 1), index + 1))
    (first, 0)
  last.1.getLastD 0

/-- Whether the characters of the first list occur in the second in the same order. -/
def isSubsequence : List Char → List Char → Bool
  | [], _ => true
  | _ :: _, [] => false
  | c :: source, d :: target =>
      if c == d then isSubsequence source target else isSubsequence (c :: source) target

/-- Whether a name holds the characters of a text in order, without regard to case, and is no
shorter. -/
def fuzzyMatches (text name : String) : Bool :=
  let source := foldName text
  let target := foldName name
  source.utf8ByteSize ≤ target.utf8ByteSize && isSubsequence source.toList target.toList

/-- The first name of a list with the least rank. -/
def leastBy (rank : String → Nat) : List String → Option String
  | [] => none
  | name :: rest =>
      match leastBy rank rest with
      | none => some name
      | some best => some (if rank best < rank name then best else name)

/-- The name that was most likely meant by `name`, if one is close enough. Among names that hold its
letters in order the closest wins, if there are at least three letters to go by. Otherwise a third
of its letters may be wrong, and at least one. An empty name cannot be meant. -/
def suggestion? (name : String) (candidates : List String) : Option String :=
  let matching :=
    if 3 ≤ name.utf8ByteSize then candidates.filter (fuzzyMatches name) else []
  let closest :=
    match leastBy (editDistance name) matching with
    | some best => some best
    | none =>
        let limit := max 1 (name.utf8ByteSize / 3)
        leastBy (editDistance name) (candidates.filter fun candidate =>
          editDistance name candidate ≤ limit)
  closest.filter (· ≠ "")

/-- The names that match a text, best first: those that start with it come before the others, and
closer ones before others. An empty text matches every name as it stands. -/
def completions (text : String) (names : List String) : List String :=
  if text == "" then names
  else
    let rank (name : String) : Bool × Nat := (!name.startsWith text, editDistance text name)
    let ranked := (names.filter (fuzzyMatches text)).map fun name => (name, rank name)
    let sorted := ranked.mergeSort fun left right =>
      if left.2.1 == right.2.1 then left.2.2 ≤ right.2.2 else right.2.1
    sorted.map Prod.fst

end Reckon.Text
