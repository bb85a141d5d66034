import Reckon.Text.Quoted

/-!
# JSON documents

A JSON document and its indented text. The members of an object are written in the order of their
keys. Characters that have a meaning in web pages are escaped.
-/

namespace Reckon

/-- A JSON document. -/
inductive Json where
  | null
  | bool (value : Bool)
  | string (value : String)
  | array (items : List Json)
  | object (members : List (String × Json))
deriving Inhabited

namespace Json

/-- A character inside a JSON string. -/
def escapeChar (c : Char) : String :=
  match c with
  | '"' => "\\\""
  | '\\' => "\\\\"
  | '\n' => "\\n"
  | '\r' => "\\r"
  | '\t' => "\\t"
  | c =>
      let code := c.toNat
      if code == 8 then "\\b"
      else if code == 12 then "\\f"
      else if code < 0x20 || c == '<' || c == '>' || c == '&' || code == 0x2028 || code == 0x2029 then
        "\\u" ++ Text.hexDigits 4 code
      else String.singleton c

/-- A JSON string. -/
def quote (text : String) : String :=
  "\"" ++ String.join (text.toList.map escapeChar) ++ "\""

/-- A new line, indented by two blanks for each level. -/
def newLine (level : Nat) : String :=
  "\n" ++ String.ofList (List.replicate (2 * level) ' ')

/-- Items between two brackets, one on a line. -/
def enclose (level : Nat) (opening closing : String) (items : List String) : String :=
  if items.isEmpty then opening ++ closing
  else
    opening ++ newLine (level + 1) ++ ("," ++ newLine (level + 1)).intercalate items ++
      newLine level ++ closing

/-- Members in the order of their keys. -/
def sortMembers (members : List (String × String)) : List (String × String) :=
  members.mergeSort fun left right => left.1 ≤ right.1

mutual

/-- The text of a document whose first line stands at a level of indentation. -/
def renderAt (level : Nat) : Json → String
  | null => "null"
  | bool value => if value then "true" else "false"
  | string value => quote value
  | array items => enclose level "[" "]" (renderItems (level + 1) items)
  | object members =>
      enclose level "\x7b" "\x7d"
        ((sortMembers (renderMembers (level + 1) members)).map fun member =>
          quote member.1 ++ ": " ++ member.2)

/-- The texts of the items of an array. -/
def renderItems (level : Nat) : List Json → List String
  | [] => []
  | first :: rest => renderAt level first :: renderItems level rest

/-- The keys of the members of an object with the texts of their values. -/
def renderMembers (level : Nat) : List (String × Json) → List (String × String)
  | [] => []
  | (key, value) :: rest => (key, renderAt level value) :: renderMembers level rest

end

/-- The text of a document, with a newline after it. -/
def render (document : Json) : String :=
  document.renderAt 0 ++ "\n"

end Json

end Reckon
