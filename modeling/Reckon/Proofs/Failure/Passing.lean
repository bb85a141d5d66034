import Reckon.Proofs.Session.Keeping

/-!
# Passing failures on

What runs applies functions, and how functions are applied is a parameter.  So it can be said without any
trace of the run whether an application matters: it does if something else would come out were it the only
application with another result.  An action passes a failure on if an application that fails either does
not matter, or the action fails with the same failure, marked with the name of the function perhaps.

How this passes from actions to what is built from them does not depend on what the failures are.
-/

namespace Reckon

/-- A function applied to arguments, on a machine. -/
structure Application where
  ref : FunctionRef
  args : List Value
  machine : Machine

namespace Application

/-- The function that is applied. -/
def function (application : Application) : Function :=
  application.machine.store.function application.ref

/-- What an application gives. -/
def run (application : Application) (apply : Applier) : EStateM.Result Failure Machine Value :=
  (apply application.ref application.args).run application.machine

/-- An application fails for a reason. -/
def FailsIn (application : Application) (apply : Applier) (reason : Failure) : Prop :=
  ∃ after, application.run apply = .error reason after

theorem FailsIn.unique {application : Application} {apply : Applier} {reason other : Failure}
    (first : application.FailsIn apply reason) (second : application.FailsIn apply other) :
    reason = other := by
  obtain ⟨_, ran⟩ := first
  obtain ⟨_, same⟩ := second
  cases ran.symm.trans same
  rfl

end Application

/-- Two ways of applying functions differ in one application at most. -/
def Applier.AgreesBut (application : Application) (first second : Applier) : Prop :=
  ∀ other : Application, other ≠ application → other.run second = other.run first

section Passing

variable {ε σ α β : Type}

/-- What an action gives does not depend on an application. -/
def Ignores (apply : Applier) (action : Applier → EStateM ε σ α) (state : σ)
    (application : Application) : Prop :=
  ∀ other, apply.AgreesBut application other → (action other).run state = (action apply).run state

/-- Whatever an application fails with, an action fails with that, marked. -/
def Delivers (said : ε → Failure) (mark : Failure → Failure) (apply : Applier)
    (action : Applier → EStateM ε σ α) (state : σ) (application : Application) : Prop :=
  ∀ other, apply.AgreesBut application other → ∀ reason, application.FailsIn other reason →
    ∃ error after, (action other).run state = .error error after ∧ said error = mark reason

/-- One application can be made to fail. -/
theorem exists_failing (apply : Applier) (application : Application) (reason : Failure) :
    ∃ other, apply.AgreesBut application other ∧ application.FailsIn other reason := by
  classical
  exact ⟨fun ref args machine =>
    if ⟨ref, args, machine⟩ = application then .error reason machine else apply ref args machine,
    fun _ differs => if_neg differs, application.machine, if_pos rfl⟩

/-- An application matters if an action tells some of its failures apart. -/
theorem Delivers.not_ignores {said : ε → Failure} {mark : Failure → Failure} {apply : Applier}
    {action : Applier → EStateM ε σ α} {state : σ} {application : Application}
    (delivers : Delivers said mark apply action state application) {reason other : Failure}
    (differ : mark reason ≠ mark other) : ¬Ignores apply action state application := by
  intro ignores
  obtain ⟨first, agrees, failed⟩ := exists_failing apply application reason
  obtain ⟨second, agreesToo, failedToo⟩ := exists_failing apply application other
  obtain ⟨_, _, ran, said⟩ := delivers first agrees reason failed
  obtain ⟨_, _, ranToo, saidToo⟩ := delivers second agreesToo other failedToo
  have same := (ignores first agrees).trans (ignores second agreesToo).symm
  cases (ran.symm.trans same).trans ranToo
  exact differ (said.symm.trans saidToo)

/-- A way of passing failures on: the failure that an error tells of, the mark that an application leaves
on it, and the errors that there may be. -/
structure Passage (ε : Type) where
  said : ε → Failure
  mark : Application → Failure → Failure
  allows : ε → Prop

/-- An action passes on what an application fails with, unless the application does not matter, and has
only the errors that there may be. -/
structure Passing (passage : Passage ε) (action : Applier → EStateM ε σ α) : Prop where
  passes : ∀ apply application state,
    Ignores apply action state application ∨
      Delivers passage.said (passage.mark application) apply action state application
  fails : ∀ (apply : Applier) {state error after}, (action apply).run state = .error error after →
    passage.allows error

variable {passage : Passage ε}

theorem Passing.allowing {action : Applier → EStateM ε σ α} {allows : ε → Prop}
    (passing : Passing passage action) (allowed : ∀ error, passage.allows error → allows error) :
    Passing { passage with allows } action :=
  ⟨passing.passes, fun apply _ _ _ failed => allowed _ (passing.fails apply failed)⟩

/-! ## Actions that apply one function -/

/-- An action makes one application, and what it gives depends on what this one gives. -/
def DependsOn (action : Applier → EStateM ε σ α) (state : σ) (application : Application) : Prop :=
  ∀ first second, application.run first = application.run second →
    (action first).run state = (action second).run state

theorem DependsOn.ignores {action : Applier → EStateM ε σ α} {state : σ}
    {application other : Application} (depends : DependsOn action state application)
    (differs : other ≠ application) (apply : Applier) : Ignores apply action state other :=
  fun _ agrees => depends _ _ (agrees application differs.symm)

theorem DependsOn.passes {action : Applier → EStateM ε σ α} {state : σ} {application : Application}
    (depends : DependsOn action state application)
    (fails : ∀ apply reason, application.FailsIn apply reason → ∃ error after,
      (action apply).run state = .error error after ∧
        passage.said error = passage.mark application reason)
    (apply : Applier) (other : Application) :
    Ignores apply action state other ∨
      Delivers passage.said (passage.mark other) apply action state other := by
  by_cases same : other = application
  · subst same
    exact .inr fun applier _ => fails applier
  · exact .inl (depends.ignores same apply)

/-! ## Actions that apply nothing -/

theorem passing_of_fails {action : EStateM ε σ α}
    (fails : ∀ state error after, action.run state = .error error after → passage.allows error) :
    Passing passage fun _ => action :=
  ⟨fun _ _ _ => .inl fun _ _ => rfl, fun _ => fails _ _ _⟩

theorem passing_pure (value : α) : Passing passage fun _ => (pure value : EStateM ε σ α) :=
  passing_of_fails fun _ _ _ failed => nomatch failed

theorem passing_get : Passing passage fun _ => (get : EStateM ε σ σ) :=
  passing_of_fails fun _ _ _ failed => nomatch failed

theorem passing_modify (change : σ → σ) :
    Passing passage fun _ => (modify change : EStateM ε σ PUnit) :=
  passing_of_fails fun _ _ _ failed => nomatch failed

theorem passing_throw {error : ε} (allowed : passage.allows error) :
    Passing passage fun _ => (throw error : EStateM ε σ α) := by
  refine passing_of_fails fun _ _ _ failed => ?_
  cases failed
  exact allowed

/-! ## Composition -/

theorem Passing.bind {first : Applier → EStateM ε σ α} {next : Applier → α → EStateM ε σ β}
    (head : Passing passage first) (rest : ∀ value, Passing passage fun apply => next apply value) :
    Passing passage fun apply => first apply >>= next apply := by
  constructor
  · intro apply application state
    rcases head.passes apply application state with ignores | delivers
    · cases ran : (first apply).run state with
      | error error after =>
          refine .inl fun other agrees => ?_
          rw [EStateM.run_bind, EStateM.run_bind, ignores other agrees, ran]
      | ok value after =>
          -- The first part leads to the same state whatever the application gives, so the second decides.
          have goOn (other : Applier) (agrees : apply.AgreesBut application other) :
              (first other >>= next other).run state = (next other value).run after := by
            rw [EStateM.run_bind, ignores other agrees, ran]
          have here : (first apply >>= next apply).run state = (next apply value).run after := by
            rw [EStateM.run_bind, ran]
          rcases (rest value).passes apply application after with ignoresRest | deliversRest
          · refine .inl fun other agrees => ?_
            rw [goOn other agrees, here]
            exact ignoresRest other agrees
          · refine .inr fun other agrees => ?_
            rw [goOn other agrees]
            exact deliversRest other agrees
    · refine .inr fun other agrees cause fails => ?_
      obtain ⟨error, after, ran, said⟩ := delivers other agrees cause fails
      exact ⟨error, after, by rw [EStateM.run_bind, ran], said⟩
  · intro apply state error after failed
    rw [EStateM.run_bind] at failed
    cases ran : (first apply).run state with
    | error _ _ =>
        rw [ran] at failed
        cases failed
        exact head.fails apply ran
    | ok value _ =>
        rw [ran] at failed
        exact (rest value).fails apply failed

theorem passing_ite {condition : Prop} [Decidable condition] {yes no : Applier → EStateM ε σ α}
    (whenTrue : condition → Passing passage yes) (whenFalse : ¬condition → Passing passage no) :
    Passing passage fun apply => if condition then yes apply else no apply := by
  by_cases decided : condition
  · simp only [if_pos decided]
    exact whenTrue decided
  · simp only [if_neg decided]
    exact whenFalse decided

variable {γ : Type}

theorem passing_mapM {action : Applier → γ → EStateM ε σ α}
    (passing : ∀ item, Passing passage fun apply => action apply item) (items : List γ) :
    Passing passage fun apply => items.mapM (action apply) := by
  induction items with
  | nil => exact passing_pure []
  | cons item rest inductionHypothesis =>
      simp only [List.mapM_cons]
      exact (passing item).bind fun _ => inductionHypothesis.bind fun _ => passing_pure _

theorem passing_foldlM {action : Applier → α → γ → EStateM ε σ α}
    (passing : ∀ soFar item, Passing passage fun apply => action apply soFar item)
    (items : List γ) (start : α) :
    Passing passage fun apply => items.foldlM (action apply) start := by
  induction items generalizing start with
  | nil => exact passing_pure start
  | cons item rest inductionHypothesis =>
      simp only [List.foldlM_cons]
      exact (passing start item).bind inductionHypothesis

theorem passing_filterM {action : Applier → γ → EStateM ε σ Bool}
    (passing : ∀ item, Passing passage fun apply => action apply item) (items : List γ) :
    Passing passage fun apply => items.filterM (action apply) := by
  have auxiliary (soFar : List γ) :
      Passing passage fun apply => items.filterAuxM (action apply) soFar := by
    induction items generalizing soFar with
    | nil => exact passing_pure soFar
    | cons item rest inductionHypothesis =>
        exact (passing item).bind fun passed => inductionHypothesis _
  exact (auxiliary []).bind fun found => passing_pure found.reverse

end Passing

/-! ## Actions on the machine -/

section Machine

open Eval

variable {α : Type} {passage : Passage Failure} {action : Applier → Eval α}

theorem passing_onStore (action : StoreM α) : Passing passage fun _ => onStore action :=
  passing_of_fails fun _ _ _ failed => nomatch failed

theorem passing_follow (action : FollowM α) (allowed : passage.allows .exhausted) :
    Passing passage fun _ => follow action := by
  refine (passing_onStore action.run).bind fun found => ?_
  cases found with
  | none => exact passing_throw allowed
  | some result => exact passing_pure result

theorem passing_orCrash (result : Except Crash α) (allowed : ∀ crash, passage.allows (.crashed crash)) :
    Passing passage fun _ => orCrash result := by
  cases result with
  | ok value => exact passing_pure value
  | error crash => exact passing_throw (allowed crash)

theorem passing_store : Passing passage fun _ => Eval.store :=
  passing_of_fails fun _ _ _ failed => nomatch failed

theorem passing_isTruthy (value : Value) : Passing passage fun _ => isTruthy value :=
  passing_of_fails fun _ _ _ failed => nomatch failed

theorem passing_textOf (value : Value) : Passing passage fun _ => textOf value :=
  passing_of_fails fun _ _ _ failed => nomatch failed

theorem passing_checkCancelled (allowed : passage.allows .cancelled) :
    Passing passage fun _ => checkCancelled := by
  refine passing_of_fails fun machine failure after failed => ?_
  rw [Regime.run_checkCancelled] at failed
  split at failed <;> cases failed
  exact allowed

theorem Passing.cleaningUp (passing : Passing passage action) (cleanUp : Machine → Machine) :
    Passing passage fun apply => cleaningUp (action apply) cleanUp := by
  constructor
  · intro apply application machine
    rcases passing.passes apply application machine with ignores | delivers
    · refine .inl fun other agrees => ?_
      rw [run_cleaningUp, run_cleaningUp, ignores other agrees]
    · refine .inr fun other agrees cause fails => ?_
      obtain ⟨error, after, ran, said⟩ := delivers other agrees cause fails
      exact ⟨error, cleanUp after, by rw [run_cleaningUp, ran], said⟩
  · intro apply machine failure after failed
    rw [run_cleaningUp] at failed
    cases ran : (action apply).run machine with
    | ok _ _ =>
        rw [ran] at failed
        cases failed
    | error _ _ =>
        rw [ran] at failed
        cases failed
        exact passing.fails apply ran

theorem Passing.inRealm (passing : Passing passage action) (realm : Nat) :
    Passing passage fun apply => inRealm realm (action apply) :=
  passing_get.bind fun _ => passing_ite (fun _ => passing) fun _ =>
    (passing_modify _).bind fun _ => passing.cleaningUp _

end Machine

end Reckon
