import Reckon.Session.Basic

/-!
# Plugins

A plugin is a bundle of values and of functions, given by their source. Installing it binds those of
its names that are still free; no binding is ever replaced.
-/

namespace Reckon

/-- A plugin. -/
structure Plugin where
  /-- The name. -/
  name : String
  /-- The version. -/
  version : String := ""
  /-- The author. -/
  author : String := ""
  /-- The values, by name. -/
  content : List (String × Value) := []
  /-- The sources of the functions, by name. -/
  functions : List (String × String) := []
deriving Inhabited

namespace Plugin

open SessionM

/-- What is done while a function of a plugin is evaluated. -/
def context (plugin : Plugin) (function : String) : String :=
  "plugin " ++ plugin.name ++ ": function " ++ function

/-- Evaluate the source of a function. A malformed source is not evaluated. -/
def evalSource (plugin : Plugin) (name source : String) : SessionM Value := do
  let tree := parseExpression (← newSource) source
  match tree.diagnostics with
  | diagnostic :: _ => refuse { root := plugin.context name ++ ": " ++ diagnostic.message }
  | [] => fun session =>
      match Session.evalTree tree session with
      | .ok value session => .ok value session
      | .error report session => .error (report.during (plugin.context name)) session

/-- The value of a function. A function without a name gets that of its entry. -/
def evalFunction (plugin : Plugin) (name source : String) : SessionM Value := do
  let value ← plugin.evalSource name source
  onStore (modify fun store => store.nameFunction value name)
  return value

/-- The values of a plugin and of its evaluated functions, in the order of their names. -/
def bindings (content : List (String × Value)) (functions : List (String × Value)) :
    List (String × Value) :=
  let kept := content.filter fun entry => !functions.any fun other => other.1 == entry.1
  HostValue.sortByKey (kept ++ functions)

/-- Bind the names that are free, in order. The others are returned. -/
def merge : List (String × Value) → SessionM (List String)
  | [] => return []
  | (name, value) :: rest => do
    match (← get).lookup? name with
    | some _ => return name :: (← merge rest)
    | none => do
      modify fun session => session.bind name value
      merge rest

/-- Install a plugin: evaluate its functions in the order of their names, and bind everything if all
of them succeed. The names that were bound already are returned. -/
def install (plugin : Plugin) : SessionM (List String) := do
  let functions ← (HostValue.sortByKey plugin.functions).mapM fun (name, source) => do
    return (name, ← plugin.evalFunction name source)
  merge (bindings plugin.content functions)

end Plugin

end Reckon
