import Reckon.Proofs.Session.Carrying

/-!
# Currying

A function collects its arguments until it has as many as its threshold asks for, and how they come in
groups does not matter.  What the calls before the last one leave behind are functions with the
arguments so far, which lie in the store and are not used again.  Functions that nothing refers to change
no outcome, so that the runs do not only begin in the same way but also end in the same way.
-/

namespace Reckon

namespace Function

/-- A function needs more arguments than it has and gets. -/
def Needs (function : Function) (args : List Value) : Prop :=
  ((function.bound ++ args).length : Int) < function.threshold

instance (function : Function) (args : List Value) : Decidable (function.Needs args) :=
  inferInstanceAs (Decidable (((function.bound ++ args).length : Int) < function.threshold))

/-- The functions that are made when a function gets groups of arguments that do not suffice.  A group
without arguments makes none. -/
def partials (function : Function) : List (List Value) → List Function
  | [] => []
  | args :: rest =>
      if args.isEmpty then function.partials rest
      else function.bind args :: (function.bind args).partials rest

theorem bind_nil (function : Function) : function.bind [] = function := by
  rw [bind, List.append_nil]

theorem bind_bind (function : Function) (first second : List Value) :
    (function.bind first).bind second = function.bind (first ++ second) := by
  rw [bind, bind, bind, List.append_assoc]

theorem needs_bind {function : Function} {first second : List Value} :
    (function.bind first).Needs second ↔ function.Needs (first ++ second) := by
  rw [Needs, Needs, bind, List.append_assoc]

theorem Needs.none {function : Function} {args : List Value} (needs : function.Needs args) :
    function.Needs [] := by
  simp only [Needs, List.length_append, List.length_nil] at needs ⊢
  omega

theorem Needs.fewer {function : Function} {first second : List Value}
    (needs : function.Needs (first ++ second)) : function.Needs first := by
  simp only [Needs, List.length_append] at needs ⊢
  omega

end Function

namespace Machine

/-- The machine with more functions in its store. -/
def storing (machine : Machine) (functions : List Function) : Machine :=
  { machine with
    store := { machine.store with
      functions := machine.store.functions ++ functions.toArray } }

theorem storing_nil (machine : Machine) : machine.storing [] = machine := by
  rw [storing, Array.append_empty]

theorem storing_cons (machine : Machine) (first : Function) (rest : List Function) :
    (machine.storing [first]).storing rest = machine.storing (first :: rest) := by
  simp [storing]

/-- A function that needs arguments is in the store. -/
theorem knows_of_needs {machine : Machine} {ref : FunctionRef} {args : List Value}
    (needs : (machine.store.function ref).Needs args) : machine.store.Knows (.function ref) := by
  cases ref with
  | builtin function => trivial
  | stored index =>
      by_cases known : index < machine.store.functions.size
      · exact known
      · -- Outside of the store there is only the default function, which needs nothing.
        rw [Store.function, Array.getD, dif_neg known] at needs
        have threshold : (default : Function).threshold = 0 := rfl
        rw [Function.Needs, threshold] at needs
        omega

/-- A function that needs arguments stays in the store when others are stored. -/
theorem function_storing {machine : Machine} {ref : FunctionRef} {args : List Value}
    (needs : (machine.store.function ref).Needs args) (functions : List Function) :
    (machine.storing functions).store.function ref = machine.store.function ref := by
  have known := knows_of_needs needs
  cases ref with
  | builtin function => rfl
  | stored index =>
      have within : index < machine.store.functions.size := known
      rw [Store.function, Store.function, storing, Array.getD_eq_getD_getElem?,
        Array.getElem?_append_left within, Array.getD_eq_getD_getElem?]

theorem function_storing_self (machine : Machine) (function : Function) :
    (machine.storing [function]).store.function (.stored machine.store.functions.size) = function := by
  simp [Store.function, storing, Array.getD]

/-- Functions that are put in behind all functions of a machine. -/
def behind (machine : Machine) (functions : List Function) : Insertion :=
  ⟨machine.store.functions.size, functions⟩

theorem past_behind_of_knows {machine : Machine} {functions : List Function} {value : Value}
    (known : machine.store.Knows value) : value.past (machine.behind functions) = value :=
  Store.past_of_knows rfl known

/-- Nothing moves when functions are stored that a machine does not refer to. -/
theorem past_behind {machine : Machine} (every : machine.Every machine.store.Knows)
    (functions : List Function) :
    machine.past (machine.behind functions) = machine.storing functions :=
  Machine.past_of_every (fun _ => past_behind_of_knows) every rfl

end Machine

namespace Eval

/-- Call a value with one group of arguments, the result with the next one, and so on. -/
def callInGroups (apply : Applier) (callee : Value) (groups : List (List Value)) : Eval Value :=
  groups.foldlM (callFunction apply) callee

variable (apply : Applier) {machine : Machine} {ref : FunctionRef} {args : List Value}

theorem run_applyWith (ref : FunctionRef) (args : List Value) (machine : Machine) :
    (applyWith apply ref args).run machine =
      (if (machine.store.function ref).Needs args then
        if args.isEmpty then return .function ref
        else newFunction ((machine.store.function ref).bind args)
      else runCode apply (machine.store.function ref).code
        ((machine.store.function ref).bound ++ args)).run machine :=
  rfl

theorem run_applyWith_nil (needs : (machine.store.function ref).Needs []) :
    (applyWith apply ref []).run machine = .ok (.function ref) machine := by
  rw [run_applyWith, if_pos needs]
  rfl

theorem run_applyWith_of_needs (needs : (machine.store.function ref).Needs args) (some : args ≠ []) :
    (applyWith apply ref args).run machine =
      .ok (.function (.stored machine.store.functions.size))
        (machine.storing [(machine.store.function ref).bind args]) := by
  have given : ¬args.isEmpty = true := mt List.isEmpty_iff.mp some
  rw [run_applyWith, if_pos needs, if_neg given, Machine.storing, ← Array.push_eq_append]
  rfl

theorem run_applyWith_of_not_needs (enough : ¬(machine.store.function ref).Needs args) :
    (applyWith apply ref args).run machine =
      (runCode apply (machine.store.function ref).code
        ((machine.store.function ref).bound ++ args)).run machine := by
  rw [run_applyWith, if_neg enough]

/-- As long as the arguments do not suffice, a call in groups ends with a function that has them all
bound. -/
theorem run_callInGroups_of_needs (machine : Machine) (ref : FunctionRef)
    (groups : List (List Value)) (needs : (machine.store.function ref).Needs groups.flatten) :
    ∃ result, (callInGroups (applyWith apply) (.function ref) groups).run machine =
        .ok (.function result) (machine.storing ((machine.store.function ref).partials groups)) ∧
      (machine.storing ((machine.store.function ref).partials groups)).store.function result =
        (machine.store.function ref).bind groups.flatten := by
  induction groups generalizing machine ref with
  | nil =>
      refine ⟨ref, ?_, ?_⟩
      · rw [Function.partials, Machine.storing_nil]
        rfl
      · rw [Function.partials, Machine.storing_nil, List.flatten_nil, Function.bind_nil]
  | cons args rest inductionHypothesis =>
      rw [List.flatten_cons] at needs ⊢
      rw [callInGroups, List.foldlM_cons, EStateM.run_bind, callFunction, Function.partials]
      by_cases empty : args = []
      · subst empty
        rw [List.nil_append] at needs ⊢
        have same : (applyWith apply ref []).run machine = .ok (.function ref) machine :=
          run_applyWith_nil apply needs.none
        rw [same]
        exact inductionHypothesis machine ref needs
      · have given : ¬args.isEmpty = true := mt List.isEmpty_iff.mp empty
        have made := machine.function_storing_self ((machine.store.function ref).bind args)
        rw [run_applyWith_of_needs apply needs.fewer empty, if_neg given]
        have later := inductionHypothesis (machine.storing [(machine.store.function ref).bind args])
          (.stored machine.store.functions.size) (by rwa [made, Function.needs_bind])
        rw [made, Machine.storing_cons, Function.bind_bind] at later
        exact later

theorem run_callInGroups_concat (groups : List (List Value)) (last : List Value)
    (needs : (machine.store.function ref).Needs groups.flatten) :
    ∃ result, (callInGroups (applyWith apply) (.function ref) (groups ++ [last])).run machine =
        (applyWith apply result last).run
          (machine.storing ((machine.store.function ref).partials groups)) ∧
      (machine.storing ((machine.store.function ref).partials groups)).store.function result =
        (machine.store.function ref).bind groups.flatten := by
  obtain ⟨result, ran, made⟩ := run_callInGroups_of_needs apply machine ref groups needs
  refine ⟨result, ?_, made⟩
  rw [callInGroups, List.foldlM_append, EStateM.run_bind]
  rw [callInGroups] at ran
  rw [ran]
  simp [callFunction]

/-- A call in groups that completes the arguments is a call with all of them, after the functions with
some of them were stored. -/
theorem run_callInGroups_of_enough (groups : List (List Value)) (last : List Value)
    (needs : (machine.store.function ref).Needs groups.flatten)
    (enough : ¬(machine.store.function ref).Needs (groups.flatten ++ last)) :
    (callInGroups (applyWith apply) (.function ref) (groups ++ [last])).run machine =
      (applyWith apply ref (groups.flatten ++ last)).run
        (machine.storing ((machine.store.function ref).partials groups)) := by
  obtain ⟨result, ran, made⟩ := run_callInGroups_concat apply groups last needs
  have kept := Machine.function_storing needs ((machine.store.function ref).partials groups)
  have completed : ¬((machine.storing ((machine.store.function ref).partials groups)).store.function
      result).Needs last := by
    rwa [made, Function.needs_bind]
  rw [run_applyWith_of_not_needs apply (by rwa [kept]), kept]
  refine ran.trans ((run_applyWith_of_not_needs apply completed).trans ?_)
  rw [made, Function.bind, List.append_assoc]

/-- A call in groups, of which only the last may complete the arguments, is the same as one call with
all of them.  With enough arguments the code of the function runs once, on all of them, after the calls
before only stored the functions that they made.  Otherwise either way ends with the function that has
all of them bound. -/
theorem currying_is_independent_of_grouping (apply : Applier) (machine : Machine) (ref : FunctionRef)
    (groups : List (List Value)) (last : List Value)
    (needs : (machine.store.function ref).Needs groups.flatten) :
    let function := machine.store.function ref
    let args := groups.flatten ++ last
    let inGroups := (callInGroups (applyWith apply) (.function ref) (groups ++ [last])).run machine
    let later := machine.storing (function.partials groups)
    (¬function.Needs args →
      inGroups = (applyWith apply ref args).run later ∧
      (applyWith apply ref args).run later =
        (runCode apply function.code (function.bound ++ args)).run later ∧
      (applyWith apply ref args).run machine =
        (runCode apply function.code (function.bound ++ args)).run machine) ∧
    (function.Needs args →
      ∃ grouped single after afterSingle,
        inGroups = .ok (.function grouped) after ∧
        (applyWith apply ref args).run machine = .ok (.function single) afterSingle ∧
        after.store.function grouped = function.bind args ∧
        afterSingle.store.function single = function.bind args ∧
        after = machine.storing (function.partials (groups ++ [last])) ∧
        afterSingle = machine.storing (function.partials [args])) ∧
    (applyWith apply ref []).run machine = .ok (.function ref) machine := by
  intro function args inGroups later
  have kept : later.store.function ref = function := Machine.function_storing needs _
  refine ⟨fun enough => ?_, fun few => ?_, run_applyWith_nil apply needs.none⟩
  · have single : (applyWith apply ref args).run later =
        (runCode apply function.code (function.bound ++ args)).run later := by
      rw [run_applyWith_of_not_needs apply (by rwa [kept]), kept]
    exact ⟨run_callInGroups_of_enough apply groups last needs enough, single,
      run_applyWith_of_not_needs apply enough⟩
  · have flat : (groups ++ [last]).flatten = args := by
      rw [List.flatten_append, List.flatten_singleton]
    have flatSingle : [args].flatten = args := List.flatten_singleton
    obtain ⟨grouped, ran, made⟩ :=
      run_callInGroups_of_needs apply machine ref (groups ++ [last]) (by rwa [flat])
    obtain ⟨single, ranSingle, madeSingle⟩ :=
      run_callInGroups_of_needs apply machine ref [args] (by rwa [flatSingle])
    rw [flat] at made
    rw [flatSingle] at madeSingle
    have one : callInGroups (applyWith apply) (.function ref) [args] = applyWith apply ref args := by
      simp [callInGroups, callFunction]
    rw [one] at ranSingle
    exact ⟨grouped, single, _, _, ran, ranSingle, made, madeSingle, rfl, rfl⟩

theorem apply_eq_applyWith : Eval.apply = applyWith (applyTo (nestingLimit - 1)) := by
  have deep : nestingLimit = nestingLimit - 1 + 1 := by decide
  funext ref args
  calc Eval.apply ref args = applyTo (nestingLimit - 1 + 1) ref args := by rw [Eval.apply, ← deep]
    _ = applyWith (applyTo (nestingLimit - 1)) ref args := by rw [applyTo]

/-- Functions in the store that nothing refers to change no outcome.  A run gives what it gives without
them, and leaves the same machine with them in its store, where functions that were created since have
moved past them. -/
theorem run_applyTo_storing {machine : Machine} {functions : List Function}
    (every : machine.Every machine.store.Knows) (fits : (machine.behind functions).Fits machine.store)
    (refKnown : machine.store.Knows (.function ref))
    (argsKnown : ∀ value ∈ args, machine.store.Knows value) (depth : Nat) :
    (applyTo depth ref args).run (machine.storing functions) =
      pastResult (machine.behind functions) (Value.past (machine.behind functions))
        ((applyTo depth ref args).run machine) := by
  have sameRef : ref.past (machine.behind functions) = ref :=
    Value.function.inj (Machine.past_behind_of_knows refKnown)
  have sameArgs : args.map (Value.past (machine.behind functions)) = args :=
    mapList_eq_self fun value given => Machine.past_behind_of_knows (argsKnown value given)
  have carried := (carries_applyTo depth ref args machine fits).same
  rwa [sameRef, sameArgs, Machine.past_behind every] at carried

/-- A function that gets enough arguments in groups does what it does if it gets them at once.  The
functions with some of the arguments come into the store as well, and nothing refers to them. -/
theorem run_callInGroups_eq {groups : List (List Value)} {last : List Value}
    (every : machine.Every machine.store.Knows)
    (needs : (machine.store.function ref).Needs groups.flatten)
    (enough : ¬(machine.store.function ref).Needs (groups.flatten ++ last))
    (argsKnown : ∀ value ∈ groups.flatten ++ last, machine.store.Knows value) :
    let partials := machine.behind ((machine.store.function ref).partials groups)
    partials.Fits machine.store →
      (callInGroups Eval.apply (.function ref) (groups ++ [last])).run machine =
        pastResult partials (Value.past partials)
          ((Eval.apply ref (groups.flatten ++ last)).run machine) := by
  intro partials fits
  have outcome := run_applyTo_storing every fits (Machine.knows_of_needs needs) argsKnown nestingLimit
  rw [apply_eq_applyWith, run_callInGroups_of_enough _ groups last needs enough, ← apply_eq_applyWith]
  exact outcome

/-- A built-in function that gets its two arguments in three groups. -/
theorem currying_of_zip_in_three_groups :
    (callInGroups Eval.apply (.function (.builtin .zip)) [[.null], [], [.boolean true]]).run {} =
      (Eval.apply (.builtin .zip) [.null, .boolean true]).run
        (Machine.storing {} [(Function.ofBuiltin .zip).bind [.null]]) := by
  rw [apply_eq_applyWith]
  have needs : (({} : Machine).store.function (.builtin .zip)).Needs [[.null], []].flatten := by decide
  have enough : ¬(({} : Machine).store.function (.builtin .zip)).Needs [.null, .boolean true] := by decide
  obtain ⟨complete, -⟩ := currying_is_independent_of_grouping (applyTo (nestingLimit - 1)) {}
    (.builtin .zip) [[.null], []] [.boolean true] needs
  exact (complete enough).1

end Eval

end Reckon
