import Mathlib.Data.List.Sort
import Reckon.Proofs.Arena.Requests
import Reckon.Proofs.Plugin.Quiet

/-!
# Installing plugins

To install a plugin is to evaluate the sources of its functions, in the order of their names and against
the global variables of the session, and then to merge: to bind each of its names that is free.  Merging
only adds bindings.  What the sources do to the global variables is another matter: they are evaluated
like any other expression, and what they did stays, also if a later source fails.  So do the names that
the installation itself gives to the functions without one that the sources evaluate to.  A plugin whose
sources are quiet changes no variable before it merges.
-/

namespace Reckon

open SessionM

/-- The sessions that a host can come to. -/
def Session.Reached (session : Session) : Prop :=
  ∃ (maxDepth : Int) (output : Output) (requests : List Request),
    session = requests.foldl Request.perform (Session.new maxDepth output {})

/-- A value was named: if it is a function of the store without a name, it has the name now, and nothing
else is different. -/
structure Session.Names (before : Session) (value : Value) (name : String) (after : Session) : Prop where
  others : after = { before with
    machine.store.functions := after.machine.store.functions }
  function : ∀ index, value = .function (.stored index) →
    after.machine.store.functions[index]? = before.machine.store.functions[index]?.map fun function =>
      if function.name = "" then { function with name } else function
  functions : ∀ index, value ≠ .function (.stored index) →
    after.machine.store.functions[index]? = before.machine.store.functions[index]?

namespace Plugin

/-- The functions of a plugin were evaluated in order: the source of each was evaluated, and then its
value was given the name of its entry, if it needed one. -/
inductive Evaluates (plugin : Plugin) :
    Session → List (String × String) → List (String × Value) → Session → Prop
  | nil (session : Session) : Evaluates plugin session [] [] session
  | cons {before evaluated named after : Session} {name source : String} {value : Value}
      {rest : List (String × String)} {values : List (String × Value)} :
      (plugin.evalSource name source).run before = .ok value evaluated →
      evaluated.Names value name named → Evaluates plugin named rest values after →
      Evaluates plugin before ((name, source) :: rest) ((name, value) :: values) after

/-- Evaluate the sources of functions, in order. -/
def evalSources (plugin : Plugin) (functions : List (String × String)) :
    SessionM (List (String × Value)) :=
  functions.mapM fun (name, source) => do
    return (name, ← plugin.evalFunction name source)

/-- The names of the content and of the functions. -/
def names (plugin : Plugin) : List String :=
  plugin.content.map Prod.fst ++ plugin.functions.map Prod.fst

/-- The value that a plugin has for a name: that of a function, or else that of its content. -/
def valueOf? (plugin : Plugin) (functions : List (String × Value)) (name : String) : Option Value :=
  (functions.lookup name).or (plugin.content.lookup name)

/-- If the source is evaluated, it neither assigns nor calls anything. -/
def IsQuietSource (source : String) : Prop :=
  ∀ number, (parseExpression number source).diagnostics = [] →
    (parseExpression number source).IsQuiet

/-- Merging a plugin led from one session to another and returned some names. -/
structure Adds (plugin : Plugin) (functions : List (String × Value)) (before after : Session)
    (skipped : List String) : Prop where
  kept : ∀ name value, before.lookup? name = some value → after.lookup? name = some value
  bound : ∀ name ∈ plugin.names, before.lookup? name = none →
    ∃ value, plugin.valueOf? functions name = some value ∧ after.lookup? name = some value
  only : ∀ name, name ∉ plugin.names → after.lookup? name = before.lookup? name
  rest : after = { before with machine.arena := after.machine.arena }
  sorted : skipped.Pairwise (· < ·)
  skipped : ∀ name, name ∈ skipped ↔ name ∈ plugin.names ∧ (before.lookup? name).isSome = true

end Plugin

/-! ## Lists of pairs with distinct keys -/

section Pairs

variable {α : Type} {left right entries : List (String × α)} {key : String} {value : α}

theorem sortByKey_perm (entries : List (String × α)) :
    (HostValue.sortByKey entries).Perm entries :=
  List.mergeSort_perm _ _

theorem ordered_sortByKey (entries : List (String × α)) :
    (HostValue.sortByKey entries).Pairwise fun left right => left.1 ≤ right.1 := by
  refine (List.pairwise_mergeSort ?_ ?_ entries).imp of_decide_eq_true
  · intro first second third before after
    exact decide_eq_true (String.le_trans (of_decide_eq_true before) (of_decide_eq_true after))
  · intro first second
    rw [Bool.or_eq_true]
    exact (String.le_total first.1 second.1).imp decide_eq_true decide_eq_true

end Pairs

/-! ## Merging -/

namespace Session

variable {session : Session}

end Session

namespace Plugin

variable {plugin : Plugin} {before after session : Session} {skipped : List String}
  {values : List (String × Value)}

theorem run_merge_cons (name : String) (value : Value) (rest : List (String × Value))
    (session : Session) :
    (merge ((name, value) :: rest)).run session =
      match session.lookup? name with
      | some _ => (merge rest >>= fun skipped => pure (name :: skipped)).run session
      | none => (merge rest).run (session.bind name value) := by
  have parts : (merge ((name, value) :: rest)).run session =
      (match session.lookup? name with
        | some _ => do return name :: (← merge rest)
        | none => do
          modify fun session => session.bind name value
          merge rest : SessionM (List String)).run session := rfl
  rw [parts]
  cases session.lookup? name <;> rfl

/-- Merging does not fail. -/
theorem merge_ne_error {entries : List (String × Value)} {report : Report} :
    (merge entries).run session ≠ .error report after := by
  induction entries generalizing session report after with
  | nil => exact nofun
  | cons first rest inductionHypothesis =>
      obtain ⟨name, value⟩ := first
      intro ran
      rw [run_merge_cons] at ran
      split at ran
      · rw [EStateM.run_bind] at ran
        split at ran
        · cases ran
        · next failed => exact inductionHypothesis failed
      · exact inductionHypothesis ran

/-! ## What is merged -/

end Plugin

/-! ## Naming functions -/

namespace Session

/-- The session after a value was named. -/
def named (session : Session) (value : Value) (name : String) : Session :=
  { session with machine.store := session.machine.store.nameFunction value name }

theorem names_named (session : Session) (value : Value) (name : String) :
    session.Names value name (session.named value name) := by
  unfold named Store.nameFunction
  split
  · next index =>
    refine ⟨rfl, fun other same => ?_, fun other differs => ?_⟩
    · obtain rfl : index = other := by simpa using same
      simp only [Array.getElem?_modify, if_true, beq_iff_eq]
    · have elsewhere : index ≠ other := fun same => differs (by rw [same])
      simp only [Array.getElem?_modify, if_neg elsewhere]
  · next noStored =>
    exact ⟨rfl, fun index same => absurd same (noStored index), fun _ _ => rfl⟩

end Session

namespace Plugin

variable {plugin : Plugin} {before after session : Session} {skipped : List String}
  {values : List (String × Value)}

/-! ## Evaluating the sources -/

theorem run_evalSources_cons (plugin : Plugin) (name source : String)
    (rest : List (String × String)) (session : Session) :
    (plugin.evalSources ((name, source) :: rest)).run session =
      match (plugin.evalFunction name source).run session with
      | .ok value middle =>
          match (plugin.evalSources rest).run middle with
          | .ok values after => .ok ((name, value) :: values) after
          | .error report after => .error report after
      | .error report middle => .error report middle := by
  rw [evalSources, List.mapM_cons]
  simp only [EStateM.run_bind]
  cases (plugin.evalFunction name source).run session with
  | error report middle => rfl
  | ok value middle =>
      simp only [EStateM.run_pure, evalSources]
      cases EStateM.run (List.mapM _ rest) middle <;> rfl

theorem run_install (plugin : Plugin) (session : Session) :
    plugin.install.run session =
      match (plugin.evalSources (HostValue.sortByKey plugin.functions)).run session with
      | .ok functions middle => (merge (bindings plugin.content functions)).run middle
      | .error report middle => .error report middle := by
  have parts : plugin.install = plugin.evalSources (HostValue.sortByKey plugin.functions) >>=
      fun functions => merge (bindings plugin.content functions) := rfl
  rw [parts, EStateM.run_bind]
  cases (plugin.evalSources (HostValue.sortByKey plugin.functions)).run session <;> rfl

/-- A malformed source only gets a number. -/
theorem run_evalSource (plugin : Plugin) (name source : String) (session : Session) :
    let tree := parseExpression session.sources source
    let numbered := { session with sources := session.sources + 1 }
    (plugin.evalSource name source).run session =
      match tree.diagnostics with
      | diagnostic :: _ =>
          .error (.ofHost { root := plugin.context name ++ ": " ++ diagnostic.message }) numbered
      | [] =>
          match (Session.evalTree tree).run numbered with
          | .ok value after => .ok value after
          | .error report after => .error (report.during (plugin.context name)) after := by
  intro tree numbered
  have parts : (plugin.evalSource name source).run session =
      (match tree.diagnostics with
        | diagnostic :: _ => refuse { root := plugin.context name ++ ": " ++ diagnostic.message }
        | [] => fun session =>
            match Session.evalTree tree session with
            | .ok value session => .ok value session
            | .error report session => .error (report.during (plugin.context name)) session
              : SessionM Value).run numbered := rfl
  rw [parts]
  cases tree.diagnostics <;> rfl

theorem run_evalFunction (plugin : Plugin) (name source : String) (session : Session) :
    (plugin.evalFunction name source).run session =
      match (plugin.evalSource name source).run session with
      | .ok value evaluated => .ok value (evaluated.named value name)
      | .error report after => .error report after := by
  rw [evalFunction, EStateM.run_bind]
  cases (plugin.evalSource name source).run session <;> rfl

/-- The course of an evaluation without an error. -/
theorem evaluates_of_run {functions : List (String × String)}
    (evaluated : (plugin.evalSources functions).run before = .ok values after) :
    plugin.Evaluates before functions values after := by
  induction functions generalizing before values with
  | nil =>
      cases evaluated
      exact .nil _
  | cons first rest inductionHypothesis =>
      obtain ⟨name, source⟩ := first
      rw [run_evalSources_cons, run_evalFunction] at evaluated
      cases ran : (plugin.evalSource name source).run before with
      | error report middle =>
          rw [ran] at evaluated
          cases evaluated
      | ok value middle =>
          rw [ran] at evaluated
          dsimp only at evaluated
          split at evaluated
          · next restRan =>
            cases evaluated
            exact .cons ran (middle.names_named value name) (inductionHypothesis restRan)
          · cases evaluated

/-- If the evaluation of the sources fails, one of them has failed, and those before it have not. -/
theorem exists_failing_source {functions : List (String × String)} {report : Report}
    (failed : (plugin.evalSources functions).run before = .error report after) :
    ∃ earlier name source later values middle,
      functions = earlier ++ (name, source) :: later ∧
      (plugin.evalSources earlier).run before = .ok values middle ∧
      (plugin.evalSource name source).run middle = .error report after := by
  induction functions generalizing before with
  | nil => cases failed
  | cons first rest inductionHypothesis =>
      obtain ⟨name, source⟩ := first
      rw [run_evalSources_cons] at failed
      split at failed
      case h_2 _ evaluated =>
        cases failed
        refine ⟨[], name, source, rest, [], before, rfl, rfl, ?_⟩
        rw [run_evalFunction] at evaluated
        split at evaluated
        · cases evaluated
        · next sourceFailed =>
          cases evaluated
          exact sourceFailed
      case h_1 value middle evaluated =>
        split at failed
        case h_1 => cases failed
        case h_2 restFailed =>
          cases failed
          obtain ⟨earlier, failing, text, later, values, reached, split, succeeded, fails⟩ :=
            inductionHypothesis restFailed
          refine ⟨(name, source) :: earlier, failing, text, later, (name, value) :: values, reached,
            ?_, ?_, fails⟩
          · rw [split, List.cons_append]
          · rw [run_evalSources_cons, evaluated]
            simp only [succeeded]

end Plugin

/-! ## Quiet sources -/

namespace SessionM

variable {α β : Type}

/-- The action leaves the global variables as they are, also if it fails. -/
def Steady (action : SessionM α) : Prop :=
  ∀ session : Session, (sessionOf (action.run session)).machine.arena.bindings 0 =
    session.machine.arena.bindings 0

theorem steady_pure (value : α) : Steady (pure value) :=
  fun _ => rfl

theorem Steady.bind {action : SessionM α} {next : α → SessionM β} (first : Steady action)
    (rest : ∀ value, Steady (next value)) : Steady (action >>= next) := by
  intro session
  have before := first session
  rw [EStateM.run_bind]
  cases ran : action.run session with
  | ok value middle =>
      rw [ran] at before
      exact (rest value middle).trans before
  | error report middle =>
      rw [ran] at before
      exact before

theorem steady_onStore (action : StoreM α) : Steady (onStore action) :=
  fun _ => rfl

theorem steady_reporting (report : Failure → Report) {action : Eval α} (steady : Eval.Steady action) :
    Steady (reporting report action) := by
  intro session
  have same := steady session.machine 0
  rw [Hosting.run_reporting]
  cases ran : action.run session.machine with
  | ok value machine =>
      rw [ran] at same
      exact same
  | error failure machine =>
      rw [ran] at same
      exact same

theorem steady_evalTree {tree : Expr} (quiet : tree.IsQuiet) : Steady (Session.evalTree tree) :=
  (steady_reporting _ Eval.steady_checkCancelled).bind fun _ =>
    steady_reporting _ (tree.steady_eval quiet)

end SessionM

namespace Session

variable {before after : Session}

theorem lookup?_congr
    (same : after.machine.arena.bindings 0 = before.machine.arena.bindings 0) (name : String) :
    after.lookup? name = before.lookup? name := by
  rw [lookup?, same, lookup?]

end Session

namespace Plugin

variable {plugin : Plugin} {before after : Session} {values : List (String × Value)}

theorem steady_evalSource (plugin : Plugin) (name : String) {source : String}
    (quiet : IsQuietSource source) : SessionM.Steady (plugin.evalSource name source) := by
  intro session
  let numbered := { session with sources := session.sources + 1 }
  rw [run_evalSource]
  cases diagnostics : (parseExpression session.sources source).diagnostics with
  | cons diagnostic rest => rfl
  | nil =>
      have same := SessionM.steady_evalTree (quiet session.sources diagnostics) numbered
      revert same
      cases (Session.evalTree (parseExpression session.sources source)).run numbered <;>
        exact fun same => same

theorem steady_evalFunction (plugin : Plugin) (name : String) {source : String}
    (quiet : IsQuietSource source) : SessionM.Steady (plugin.evalFunction name source) :=
  (steady_evalSource plugin name quiet).bind fun _ =>
    (SessionM.steady_onStore _).bind fun _ => SessionM.steady_pure _

theorem steady_evalSources (plugin : Plugin) {functions : List (String × String)}
    (quiet : ∀ function ∈ functions, IsQuietSource function.2) :
    SessionM.Steady (plugin.evalSources functions) := by
  induction functions with
  | nil => exact SessionM.steady_pure []
  | cons first rest inductionHypothesis =>
      obtain ⟨firstQuiet, restQuiet⟩ := List.forall_mem_cons.mp quiet
      have first := (steady_evalFunction plugin first.1 firstQuiet).bind
        fun value => SessionM.steady_pure (first.1, value)
      rw [evalSources, List.mapM_cons]
      exact first.bind fun _ => (inductionHypothesis restQuiet).bind fun _ => SessionM.steady_pure _

/-! ## Installing -/

/-- A session in which `x` is a text. -/
def named : Session :=
  Request.perform (Session.new 100 (.text "") {}) (.define "x" (.string "old"))

/-- The text that a global name is bound to. -/
def textAt? (session : Session) (name : String) : Option String :=
  match session.lookup? name with
  | some (.string text) => some text
  | _ => none

/-- A plugin that cannot be installed binds nothing.  What stays are the effects of the sources that were
evaluated, and the names that the functions among their values were given. -/
theorem failed_install_merges_nothing {report : Report}
    (failed : plugin.install.run before = .error report after) :
    ∃ earlier name source later functions evaluated,
      HostValue.sortByKey plugin.functions = earlier ++ (name, source) :: later ∧
      plugin.Evaluates before earlier functions evaluated ∧
      (plugin.evalSource name source).run evaluated = .error report after ∧
      ((∀ function ∈ earlier ++ [(name, source)], IsQuietSource function.2) →
        ∀ name, after.lookup? name = before.lookup? name) := by
  rw [run_install] at failed
  split at failed
  case h_1 => exact absurd failed merge_ne_error
  case h_2 sources =>
    cases failed
    obtain ⟨earlier, name, source, later, functions, evaluated, parts, succeeded, fails⟩ :=
      exists_failing_source sources
    refine ⟨earlier, name, source, later, functions, evaluated, parts, evaluates_of_run succeeded,
      fails, ?_⟩
    intro quiet
    rw [List.forall_mem_append, List.forall_mem_singleton] at quiet
    have earlierSame := steady_evalSources plugin quiet.1 before
    rw [succeeded] at earlierSame
    have lastSame := steady_evalSource plugin name quiet.2 evaluated
    rw [fails] at lastSame
    exact Session.lookup?_congr (lastSame.trans earlierSame)

/-- A plugin whose second source reads a variable that is not bound. -/
def failing : Plugin where
  name := "p"
  functions := [("a", "x = \"new\""), ("b", "missing")]

theorem run_install_failing : failing.install.run named =
    match (failing.evalSources failing.functions).run named with
    | .ok functions middle => (merge (bindings [] functions)).run middle
    | .error report middle => .error report middle := by
  have sorted : HostValue.sortByKey failing.functions = failing.functions :=
    List.mergeSort_of_pairwise (by decide)
  rw [run_install, sorted]
  rfl

theorem failing_merges_nothing : ∃ report after earlier name source later functions evaluated,
    failing.install.run named = .error report after ∧
      HostValue.sortByKey failing.functions = earlier ++ (name, source) :: later ∧
      failing.Evaluates named earlier functions evaluated ∧
      (failing.evalSource name source).run evaluated = .error report after := by
  have fails : (reportOf (failing.install.run named)).isSome = true := by
    rw [run_install_failing]
    decide +kernel
  cases ran : failing.install.run named with
  | ok skipped after =>
      rw [ran] at fails
      cases fails
  | error report after =>
      obtain ⟨earlier, name, source, later, functions, evaluated, parts, succeeded, failed, _⟩ :=
        failed_install_merges_nothing ran
      exact ⟨report, after, earlier, name, source, later, functions, evaluated, rfl, parts, succeeded,
        failed⟩

/-- The name that a global name is bound to a function of. -/
def functionNameAt? (session : Session) (name : String) : Option String :=
  match session.lookup? name with
  | some (.function ref) => some (session.machine.store.function ref).name
  | _ => none

/-- A function that was bound before, without a name, is the value of a source: it stays bound, and keeps the
name of the entry although a later source fails. -/
example :
    let bound := Request.perform (Session.new 100 (.text "") {}) (.eval "h = x => x")
    let plugin : Plugin := { name := "p", functions := [("a", "h"), ("b", "missing")] }
    let result := (plugin.evalSources plugin.functions).run bound
    (reportOf result).isSome = true ∧ functionNameAt? bound "h" = some "" ∧
      functionNameAt? (sessionOf result) "h" = some "a" := by
  decide +kernel

/-- What the source before the failing one assigned stays. -/
theorem assignment_survives_failed_install :
    let result := failing.install.run named
    named.Reached ∧ (reportOf result).isSome = true ∧ textAt? named "x" = some "old" ∧
      textAt? (sessionOf result) "x" = some "new" := by
  refine ⟨⟨100, .text "", [.define "x" (.string "old")], rfl⟩, ?_⟩
  rw [run_install_failing]
  decide +kernel

end Plugin

end Reckon
