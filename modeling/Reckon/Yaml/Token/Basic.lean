import Reckon.Yaml.Basic

/-!
# Tokens of YAML

The parts that a text is cut into. Indentation shows as tokens of its own: a block collection is
between the token of its start and a token for its end, and a key is announced by a token.
-/

namespace Reckon.Yaml

/-- What a token is. -/
inductive Token.Kind where
  /-- The text starts. -/
  | streamStart
  /-- The text ends. -/
  | streamEnd
  /-- The version that a document is written in. -/
  | version (major minor : Nat)
  /-- The meaning of the handle of a tag. -/
  | handle (handle meaning : String)
  /-- Three hyphens. -/
  | documentStart
  /-- Three dots. -/
  | documentEnd
  /-- The items of a block sequence follow. -/
  | blockSequence
  /-- The entries of a block mapping follow. -/
  | blockMapping
  /-- A block collection ends. -/
  | blockEnd
  /-- An opening bracket. -/
  | openSequence
  /-- A closing bracket. -/
  | closeSequence
  /-- An opening brace. -/
  | openMapping
  /-- A closing brace. -/
  | closeMapping
  /-- A hyphen. -/
  | item
  /-- A comma. -/
  | comma
  /-- A key follows. -/
  | key
  /-- A value follows. -/
  | value
  /-- The name of a node that stands here again. -/
  | reference (name : String)
  /-- A name for the node that follows. -/
  | anchor (name : String)
  /-- A tag for the node that follows. -/
  | tag (handle suffix : String)
  /-- A scalar; `plain` if it is neither in quotes nor a block. -/
  | scalar (text : String) (plain : Bool)
deriving DecidableEq, Repr

/-- A token. -/
structure Token where
  /-- What it is. -/
  kind : Token.Kind
  /-- The line it starts on, counted from zero. -/
  line : Nat
deriving DecidableEq, Repr

end Reckon.Yaml
