import Reckon.Proofs.Failure.Evaluation

/-!
# The way of a failure

A function that fails ends the run of whatever called it, and so on up to the host or to a catch.  Between
them the failure stays what it is, but a bare fault of the host is marked once: with the name of the
innermost function on the way that a program called.

The functions of the host may do anything, so they are a parameter here.
-/

namespace Reckon

open Eval

/-- What the functions of a host do, given how they can apply functions themselves: anything. -/
abbrev Host := Applier → Native → List Value → Eval Value

namespace Host

/-- Run the code of a function. -/
def runCode (host : Host) (apply : Applier) (code : Code) (args : List Value) : Eval Value :=
  match code with
  | .native function => host apply function args
  | code => Eval.runCode apply code args

/-- Apply a function to arguments, given how functions are applied within it. -/
def applyWith (host : Host) (apply : Applier) : Applier := fun ref args => do
  let function := (← store).function ref
  let all := function.bound ++ args
  if (all.length : Int) < function.threshold then
    if args.isEmpty then return .function ref else newFunction (function.bind args)
  else host.runCode apply function.code all

/-- Apply a function to arguments, with calls nested to a depth. -/
def applyTo (host : Host) : Nat → Applier
  | 0, _, _ => throw .exhausted
  | depth + 1, ref, args => host.applyWith (host.applyTo depth) ref args

/-- The host of every session. -/
def usual : Host :=
  fun _ => runNative

theorem applyTo_usual (depth : Nat) : usual.applyTo depth = Eval.applyTo depth := by
  have runs (apply : Applier) : usual.runCode apply = Eval.runCode apply := by
    funext code
    cases code <;> rfl
  induction depth with
  | zero => rfl
  | succ depth inductionHypothesis =>
      funext ref args
      rw [applyTo, Eval.applyTo, inductionHypothesis, applyWith, Eval.applyWith, runs]

end Host

/-! ## Within applications -/

/-- What an application does, given how functions are applied within it. -/
abbrev Host.within (host : Host) (application : Application) (apply : Applier) : Eval Value :=
  host.applyWith apply application.ref application.args

/-- An application makes another one, and it matters what this one gives. -/
def Host.Makes (host : Host) (depth : Nat) (application next : Application) : Prop :=
  ¬Ignores (host.applyTo depth) (host.within application) application.machine next

variable {host : Host} {depth : Nat} {application next : Application} {reason : Failure}

theorem Host.run_within (host : Host) (application : Application) (apply : Applier) :
    (host.within application apply).run application.machine =
      (if ((application.function.bound ++ application.args).length : Int) <
          application.function.threshold then
        if application.args.isEmpty then pure (.function application.ref)
        else newFunction (application.function.bind application.args)
      else host.runCode apply application.function.code
        (application.function.bound ++ application.args)).run application.machine :=
  rfl

/-- What an application does with failures depends on the code of the function only. -/
theorem passes_of_code {passage : Passage Failure}
    (passing : ∀ args, Passing passage fun apply => host.runCode apply application.function.code args)
    (apply : Applier) :
    Ignores apply (host.within application) application.machine next ∨
      Delivers passage.said (passage.mark next) apply (host.within application) application.machine
        next := by
  have chosen : Passing passage fun apply =>
      if ((application.function.bound ++ application.args).length : Int) <
          application.function.threshold then
        if application.args.isEmpty then pure (.function application.ref)
        else newFunction (application.function.bind application.args)
      else host.runCode apply application.function.code
        (application.function.bound ++ application.args) :=
    passing_ite (fun _ => passing_ite (fun _ => passing_pure _) fun _ => passing_onStore _)
      fun _ => passing _
  exact chosen.passes apply next application.machine

/-- An application makes no other one that matters if its code runs the same however functions are
applied. -/
theorem not_makes_of_code
    (same : ∀ first second args, host.runCode first application.function.code args =
      host.runCode second application.function.code args) :
    ¬host.Makes depth application next := by
  refine not_not_intro fun other _ => ?_
  rw [host.run_within, host.run_within, same other (host.applyTo depth)]

/-- What an application makes another one for fails when this one fails. -/
theorem fails_of_code {passage : Passage Failure}
    (passing : ∀ args, Passing passage fun apply => host.runCode apply application.function.code args)
    (makes : host.Makes depth application next) (failed : next.FailsIn (host.applyTo depth) reason) :
    ∃ failure, application.FailsIn (host.applyTo (depth + 1)) failure ∧
      passage.said failure = passage.mark next reason := by
  have delivers := (passes_of_code passing (host.applyTo depth)).resolve_left makes
  obtain ⟨failure, after, ran, said⟩ := delivers _ (fun _ _ => rfl) reason failed
  exact ⟨failure, ⟨after, ran⟩, said⟩

/-- A function of the program marks what it passes on. -/
theorem fails_of_closure {realm parent : Nat} {static : Option FrameId} {params : List String}
    {body : Body} (code : application.function.code = .closure realm parent static params body)
    (makes : host.Makes depth application next) (failed : next.FailsIn (host.applyTo depth) reason) :
    application.FailsIn (host.applyTo (depth + 1)) (reason.calling next.function.name) := by
  have passing (args : List Value) :
      Passing .program fun apply => host.runCode apply application.function.code args := by
    simp only [code]
    exact (passing_invoke parent static params body args).inRealm realm
  obtain ⟨_, fails, rfl⟩ := fails_of_code passing makes failed
  exact fails

/-- A built-in function passes on what it is given, if it does not catch it. -/
theorem fails_of_builtin {function : Builtin} (code : application.function.code = .builtin function)
    (passes : function ≠ .rescue) (makes : host.Makes depth application next)
    (failed : next.FailsIn (host.applyTo depth) reason) :
    application.FailsIn (host.applyTo (depth + 1)) reason := by
  have passing (args : List Value) :
      Passing .library fun apply => host.runCode apply application.function.code args := by
    simp only [code]
    exact passing_libraryRun passes args
  obtain ⟨_, fails, rfl⟩ := fails_of_code passing makes failed
  exact fails

/-- The function that catches failures makes a map of what it is given, unless that is not to be caught. -/
theorem catches {after : Machine} (code : application.function.code = .builtin .rescue)
    (makes : host.Makes depth application next)
    (failed : next.run (host.applyTo depth) = .error reason after) :
    application.run (host.applyTo (depth + 1)) =
      if Library.isCatchable reason then
        (newMap (.ofEntries
          [("value", .null), ("error", Library.caught after.store reason)])).run after
      else .error reason after := by
  -- With too few arguments nothing is called, so no application would matter.
  have enough : ¬((application.function.bound ++ application.args).length : Int) <
      application.function.threshold := by
    refine fun few => makes fun other _ => ?_
    rw [host.run_within, host.run_within, if_pos few, if_pos few]
  have runs (apply : Applier) : (host.within application apply).run application.machine =
      (Library.rescue (callFunction apply)
        ((application.function.bound ++ application.args).getD 0 .null)).run
          application.machine := by
    rw [host.run_within, if_neg enough, code]
    rfl
  change (host.within application (host.applyTo depth)).run application.machine = _
  rw [runs]
  cases callee : (application.function.bound ++ application.args).getD 0 .null with
  | function ref =>
      rw [callee] at runs
      have depends : DependsOn (host.within application) application.machine
          ⟨ref, [], application.machine⟩ := by
        intro first second same
        have applied : (callFunction first (.function ref) []).run application.machine =
            (callFunction second (.function ref) []).run application.machine := same
        rw [runs, runs, Regime.run_rescue, Regime.run_rescue, applied]
      -- The only application that matters is that of the function to its arguments, which are none.
      have same : next = ⟨ref, [], application.machine⟩ :=
        Classical.not_not.mp fun differs => makes (depends.ignores differs _)
      subst same
      have called : (callFunction (host.applyTo depth) (.function ref) []).run application.machine =
          .error reason after := failed
      rw [Regime.run_rescue, called]
  | _ =>
      rw [callee] at runs
      exact absurd (fun apply _ => by rw [runs, runs]; rfl) makes

/-! ## On the way -/

/-- The failure as it is after a mark, if there is one. -/
def Failure.marked (failure : Failure) : Option Application → Failure
  | none => failure
  | some application => failure.calling application.function.name

/-- A failure is marked once. -/
theorem Failure.calling_calling (failure : Failure) (first second : String) :
    (failure.calling first).calling second = failure.calling first := by
  cases failure <;> rfl

theorem Failure.calling_marked (failure : Failure) (mark : Option Application) :
    (failure.marked mark).calling next.function.name =
      failure.calling (mark.getD next).function.name := by
  cases mark with
  | none => rfl
  | some application => exact failure.calling_calling _ _

/-- From an application to one that is made within it, by any number of functions of the program and
built-in functions, each of which makes the next one, and none of which catches failures. The innermost
application that a function of the program makes on this way is the one that marks. -/
inductive Route (host : Host) : Nat → Application → Nat → Application → Option Application → Prop
  | here (depth : Nat) (application : Application) :
      Route host depth application depth application none
  | called {depth bottom : Nat} {application next origin : Application} {mark : Option Application}
      {realm parent : Nat} {static : Option FrameId} {params : List String} {body : Body} :
      application.function.code = .closure realm parent static params body →
      host.Makes depth application next → Route host depth next bottom origin mark →
      Route host (depth + 1) application bottom origin (some (mark.getD next))
  | calledBack {depth bottom : Nat} {application next origin : Application}
      {mark : Option Application} {function : Builtin} :
      application.function.code = .builtin function → function ≠ .rescue →
      host.Makes depth application next → Route host depth next bottom origin mark →
      Route host (depth + 1) application bottom origin mark

/-- What the last application on a route fails with, the first one fails with, marked at most once. -/
theorem Route.fails {bottom : Nat} {origin : Application} {mark : Option Application}
    (route : Route host depth application bottom origin mark)
    (failed : origin.FailsIn (host.applyTo bottom) reason) :
    application.FailsIn (host.applyTo depth) (reason.marked mark) := by
  induction route with
  | here => exact failed
  | called code makes _ inductionHypothesis =>
      have fails := fails_of_closure code makes (inductionHypothesis failed)
      rw [Failure.calling_marked] at fails
      exact fails
  | calledBack code passes makes _ inductionHypothesis =>
      exact fails_of_builtin code passes makes (inductionHypothesis failed)

/-- Nothing within an application accounts for its failure: it is of the host, it catches failures, or no
application that fails matters to it. -/
def Host.IsOrigin (host : Host) (bottom : Nat) (origin : Application) : Prop :=
  (∃ function, origin.function.code = .native function) ∨
    origin.function.code = .builtin .rescue ∨
    ∀ depth next reason, bottom = depth + 1 → next.FailsIn (host.applyTo depth) reason →
      ¬host.Makes depth origin next

/-- A failure of an application began somewhere, and came along a route. -/
def Host.Traced (host : Host) (depth : Nat) (application : Application) (reason : Failure) : Prop :=
  ∃ bottom origin mark cause, Route host depth application bottom origin mark ∧
    origin.FailsIn (host.applyTo bottom) cause ∧ host.IsOrigin bottom origin ∧
    reason = cause.marked mark

/-- The induction is on the depth: a failure either begins in an application, or in one that matters to it
one level down. -/
theorem traced (failed : application.FailsIn (host.applyTo depth) reason) :
    host.Traced depth application reason := by
  induction depth generalizing application reason with
  | zero =>
      have isOrigin : host.IsOrigin 0 application :=
        .inr (.inr fun depth _ _ below => absurd below.symm (Nat.succ_ne_zero depth))
      exact ⟨0, application, none, reason, .here 0 application, failed, isOrigin, rfl⟩
  | succ depth inductionHypothesis =>
      have startsHere (isOrigin : host.IsOrigin (depth + 1) application) :
          host.Traced (depth + 1) application reason :=
        ⟨depth + 1, application, none, reason, .here _ application, failed, isOrigin, rfl⟩
      by_cases inner : ∃ next cause, next.FailsIn (host.applyTo depth) cause ∧
          host.Makes depth application next
      case neg =>
        refine startsHere (.inr (.inr fun _ next cause below fails makes => ?_))
        cases below
        exact inner ⟨next, cause, fails, makes⟩
      case pos =>
        obtain ⟨next, cause, fails, makes⟩ := inner
        obtain ⟨bottom, origin, mark, first, route, failedFirst, isOrigin, rfl⟩ :=
          inductionHypothesis fails
        -- The failure that comes along the longer route is the only one that the application has.
        have goesOn {mark : Option Application}
            (route : Route host (depth + 1) application bottom origin mark) :
            host.Traced (depth + 1) application reason :=
          ⟨bottom, origin, mark, first, route, failedFirst, isOrigin,
            failed.unique (route.fails failedFirst)⟩
        cases code : application.function.code with
        | native function => exact startsHere (.inl ⟨function, code⟩)
        | print realm =>
            refine absurd makes (not_makes_of_code fun _ _ _ => ?_)
            rw [code]
            rfl
        | closure realm parent static params body => exact goesOn (.called code makes route)
        | builtin function =>
            by_cases passes : function = .rescue
            · subst passes
              exact startsHere (.inr (.inl code))
            · exact goesOn (.calledBack code passes makes route)

end Reckon
