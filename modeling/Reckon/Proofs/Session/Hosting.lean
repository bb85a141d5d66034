import Reckon.Plugin.Basic
import Reckon.Proofs.Session.Evaluation

/-!
# Requests

What a host can ask of a session, and what a property of machines has to satisfy so that every request
keeps it: the host itself extends the store, binds global variables and adds realms, and everything
else is evaluation.  A request that fails reports a failure of the evaluation or a refusal of the host.
-/

namespace Reckon

open Eval

namespace SessionM

variable {α : Type}

/-- The session after a request, whether it failed or not. -/
def sessionOf : EStateM.Result Report Session α → Session
  | .ok _ session => session
  | .error _ session => session

/-- What a request reported, if it failed. -/
def reportOf : EStateM.Result Report Session α → Option Report
  | .ok _ _ => none
  | .error report _ => some report

end SessionM

/-- What a host can ask of a session. -/
inductive Request where
  | run (file : String) (source : List UInt8)
  | exec (statements : List Stmt)
  | eval (text : String)
  | evalTree (tree : Expr)
  | evalApart (text : String)
  | call (name : String) (args : List HostValue)
  | define (name : String) (value : HostValue)
  | install (plugin : Plugin)
  | settle (name : String) (outcome : Outcome)
  | start (cancelled : Bool)
  | under (context : Context) (request : Request)

namespace Request

open SessionM

/-- The session after a request, whether it failed or not. -/
def perform (session : Session) : Request → Session
  | run file source => sessionOf ((Session.run file source).run session)
  | exec statements => sessionOf ((Session.exec statements).run session)
  | eval text => sessionOf ((Session.eval text).run session)
  | evalTree tree => sessionOf ((Session.evalTree tree).run session)
  | evalApart text => sessionOf ((Session.evalApart text).run session)
  | call name args => sessionOf ((Session.call name args).run session)
  | define name value => sessionOf ((Session.define name value).run session)
  | install plugin => sessionOf (plugin.install.run session)
  | settle name outcome => sessionOf ((Session.settle name outcome).run session)
  | start cancelled => session.start cancelled
  | under context request =>
      (perform (session.withContext context) request).withContext session.machine.context

/-- What a request reports, if it fails. -/
def report? (session : Session) : Request → Option Report
  | run file source => reportOf ((Session.run file source).run session)
  | exec statements => reportOf ((Session.exec statements).run session)
  | eval text => reportOf ((Session.eval text).run session)
  | evalTree tree => reportOf ((Session.evalTree tree).run session)
  | evalApart text => reportOf ((Session.evalApart text).run session)
  | call name args => reportOf ((Session.call name args).run session)
  | define name value => reportOf ((Session.define name value).run session)
  | install plugin => reportOf (plugin.install.run session)
  | settle name outcome => reportOf ((Session.settle name outcome).run session)
  | start _ => none
  | under context request => report? (session.withContext context) request

end Request

namespace Machine

/-- Add a realm in which nothing but the built-in functions and `print` is bound. -/
def found (machine : Machine) : Machine :=
  let (print, store) := machine.store.newFunction (Session.printFunction machine.parked.size)
  let fresh : Realm := { arena := Arena.set {} 0 "print" (.function print) }
  { machine with store, parked := machine.parked.push fresh }

end Machine

/-! ## Values of the host -/

/-- The action extends the store. -/
def StoreM.Extending {α : Type} (action : StoreM α) : Prop :=
  ∀ store : Store, store.Extends (action.run store).2

namespace StoreM

variable {α β : Type}

theorem Blind.extending {action : StoreM α} (blind : Blind action) : action.Extending :=
  fun store => Store.extends_of_functions_eq (blind.functions store)

theorem extending_pure (value : α) : (pure value : StoreM α).Extending :=
  (blind_pure value).extending

theorem Extending.bind {action : StoreM α} {next : α → StoreM β} (first : action.Extending)
    (rest : ∀ value, (next value).Extending) : (action >>= next).Extending := by
  intro store
  have later := rest (action.run store).1 (action.run store).2
  exact (first store).trans later

end StoreM

namespace HostValue

open StoreM

theorem extending_dictionaryOf (entries : List (String × Except HostFault Value)) :
    (dictionaryOf entries).Extending := by
  unfold dictionaryOf
  split
  · exact ((blind_newMap _).map _).extending
  · exact extending_pure _

mutual

theorem extending_convert (value : HostValue) : value.convert.Extending := by
  cases value with
  | list items =>
      unfold convert
      refine (extending_convertItems 0 items).bind fun converted => ?_
      cases converted with
      | ok values =>
          exact ((blind_newArray values).map _).extending
      | error fault =>
          exact extending_pure _
  | dictionary entries =>
      unfold convert
      exact (extending_convertEntries entries).bind extending_dictionaryOf
  | native function =>
      unfold convert
      exact fun store => Store.extends_newFunction (.inl rfl)
  | future =>
      unfold convert
      exact fun store => Store.extends_of_functions_eq rfl
  | _ =>
      unfold convert
      exact extending_pure _

theorem extending_convertItems (index : Nat) (items : List HostValue) :
    (convertItems index items).Extending := by
  cases items with
  | nil =>
      unfold convertItems
      exact extending_pure _
  | cons first rest =>
      unfold convertItems
      refine (extending_convert first).bind fun converted => ?_
      split
      · exact extending_pure _
      · exact (extending_convertItems (index + 1) rest).bind fun _ => extending_pure _

theorem extending_convertEntries (entries : List (String × HostValue)) :
    (convertEntries entries).Extending := by
  match entries with
  | [] =>
      unfold convertEntries
      exact extending_pure _
  | (key, first) :: rest =>
      unfold convertEntries
      exact (extending_convert first).bind fun _ =>
        (extending_convertEntries rest).bind fun _ => extending_pure _

end

end HostValue

/-! ## Programs -/

/-- A property of actions of a session that holds of a sequence if it holds of its parts. -/
structure SessionM.Composes (holds : (α : Type) → SessionM α → Prop) : Prop where
  pure : ∀ {α : Type} (value : α), holds α (pure value)
  bind : ∀ {α β : Type} {action : SessionM α} {next : α → SessionM β}, holds α action →
    (∀ value, holds β (next value)) → holds β (action >>= next)

/-- A program consists of looks at the context and of its statements. -/
theorem SessionM.Composes.execFrom {holds : (α : Type) → SessionM α → Prop}
    (composes : SessionM.Composes holds) {statements : List Stmt}
    (looks : holds Unit (SessionM.reporting (fun failure => { failure }) Eval.checkCancelled))
    (runs : ∀ statement ∈ statements, holds Completion
      (SessionM.reporting (.atPosition statement.span.start) (statement.exec Eval.apply)))
    (last : Value) : holds Value (Session.execFrom last statements) := by
  induction statements generalizing last with
  | nil =>
      exact composes.pure last
  | cons statement rest inductionHypothesis =>
      obtain ⟨first, others⟩ := List.forall_mem_cons.mp runs
      refine composes.bind looks fun _ => composes.bind first fun completion => ?_
      cases completion with
      | normal value =>
          exact inductionHypothesis others _
      | returned value =>
          exact composes.pure value
      | exitLoop =>
          exact inductionHypothesis others last
      | nextRound =>
          exact inductionHypothesis others last

/-! ## Hosting -/

/-- From a machine, an action leads to a machine with a property, and fails only in some ways. -/
structure Eval.Leaves {α : Type} (idle : Machine → Prop) (fails : Failure → Prop)
    (machine : Machine) (action : Eval α) : Prop where
  idle : idle (machineOf (action.run machine))
  fails : FailsOnly fails (action.run machine)

/-- A property of machines between requests, the failures that are reported, and the trees that a host
may run. -/
structure Hosting where
  idle : Machine → Prop
  fails : Failure → Prop
  expr : Expr → Prop
  stmt : Stmt → Prop
  ordinary : ∀ {failure}, failure.isOrdinary = true → fails failure
  cancelled : fails .cancelled
  wellFormed : ∀ number text, (parseExpression number text).diagnostics = [] →
    expr (parseExpression number text)
  extend : ∀ {machine store}, idle machine → machine.store.Extends store →
    idle { machine with store }
  report : ∀ {machine} output context, idle machine → idle { machine with output, context }
  bind : ∀ {machine} name value, idle machine → idle (machine.bindAt 0 name value)
  eval : ∀ {machine tree}, idle machine → expr tree →
    Leaves idle fails machine (tree.eval Eval.apply)
  exec : ∀ {machine tree}, idle machine → stmt tree →
    Leaves idle fails machine (tree.exec Eval.apply)
  call : ∀ {machine} callee args, idle machine →
    Leaves idle fails machine (Eval.call Eval.apply callee args)
  apart : ∀ {machine tree}, idle machine → expr tree →
    Leaves idle fails machine.found (inRealm machine.parked.size (tree.eval Eval.apply))

namespace Hosting

open SessionM

variable (hosting : Hosting) {α β : Type}

/-- A request that the host may make of a session. -/
def Admits (session : Session) : Request → Prop
  | .run file source => ∀ tree ∈ parseProgram session.sources file source, hosting.stmt tree
  | .exec statements => ∀ tree ∈ statements, hosting.stmt tree
  | .eval text => hosting.expr (parseExpression session.sources text)
  | .evalTree tree => hosting.expr tree
  | .evalApart text => hosting.expr (parseExpression session.sources text)
  | .under context request => Admits (session.withContext context) request
  | _ => True

/-- Requests that the host may make one after the other. -/
def AdmitsAll : Session → List Request → Prop
  | _, [] => True
  | session, request :: rest =>
      hosting.Admits session request ∧ AdmitsAll (request.perform session) rest

/-- An action of a session keeps the property and reports only some failures. -/
structure ServesAt (session : Session) (action : SessionM α) : Prop where
  idle : hosting.idle (sessionOf (action.run session)).machine
  fails : ∀ report, reportOf (action.run session) = some report → hosting.fails report.failure

/-- An action keeps the property in every session. -/
def Serves (action : SessionM α) : Prop :=
  ∀ session : Session, hosting.idle session.machine → hosting.ServesAt session action

variable {hosting} {session : Session}

/-! ## Actions of a session -/

/-- An action that reports nothing. -/
theorem servesAt_of_none {action : SessionM α}
    (idle : hosting.idle (sessionOf (action.run session)).machine)
    (silent : reportOf (action.run session) = none) : hosting.ServesAt session action := by
  refine ⟨idle, fun report reported => ?_⟩
  rw [silent] at reported
  cases reported

theorem serves_pure (value : α) : hosting.Serves (pure value) :=
  fun _ idle => servesAt_of_none idle rfl

theorem serves_throw {report : Report} (ordinary : report.failure.isOrdinary = true) :
    hosting.Serves (throw report : SessionM α) := by
  intro session idle
  refine ⟨idle, ?_⟩
  rintro _ ⟨⟩
  exact hosting.ordinary ordinary

theorem ServesAt.bind {action : SessionM α} {next : α → SessionM β}
    (first : hosting.ServesAt session action)
    (rest : ∀ value later, action.run session = .ok value later → hosting.idle later.machine →
      hosting.ServesAt later (next value)) :
    hosting.ServesAt session (action >>= next) := by
  obtain ⟨idle, fails⟩ := first
  cases ran : action.run session with
  | ok value later =>
      rw [ran] at idle
      have goOn := rest value later ran idle
      constructor
      · rw [EStateM.run_bind, ran]
        exact goOn.idle
      · rw [EStateM.run_bind, ran]
        exact goOn.fails
  | error report later =>
      rw [ran] at idle fails
      constructor
      · rw [EStateM.run_bind, ran]
        exact idle
      · rw [EStateM.run_bind, ran]
        exact fails

theorem serves_bind {action : SessionM α} {next : α → SessionM β} (first : hosting.Serves action)
    (rest : ∀ value, hosting.Serves (next value)) : hosting.Serves (action >>= next) :=
  fun session idle => (first session idle).bind fun value later _ => rest value later

theorem serves_get {next : Session → SessionM α}
    (rest : ∀ session, hosting.Serves (next session)) : hosting.Serves (get >>= next) :=
  fun session idle => ⟨(rest session session idle).idle, (rest session session idle).fails⟩

theorem serves_modify {change : Session → Session}
    (kept : ∀ session : Session, hosting.idle session.machine →
      hosting.idle (change session).machine) : hosting.Serves (modify change) :=
  fun session idle => servesAt_of_none (kept session idle) rfl

/-- A source is parsed with the number that the session gives it. -/
theorem servesAt_newSource {next : Nat → SessionM α} (idle : hosting.idle session.machine)
    (rest : hosting.ServesAt { session with sources := session.sources + 1 }
      (next session.sources)) :
    hosting.ServesAt session (newSource >>= next) := by
  have first : hosting.ServesAt session newSource := servesAt_of_none idle rfl
  refine first.bind fun value later ran _ => ?_
  cases ran
  exact rest

theorem serves_onStore {action : StoreM α} (extending : action.Extending) :
    hosting.Serves (onStore action) :=
  fun session idle => servesAt_of_none (hosting.extend idle (extending session.machine.store)) rfl

theorem run_reporting (report : Failure → Report) (action : Eval α) (session : Session) :
    (reporting report action).run session =
      match action.run session.machine with
      | .ok result machine => .ok result { session with machine }
      | .error failure machine => .error (report failure) { session with machine } :=
  rfl

/-- A report says what the evaluation failed with. -/
theorem servesAt_reporting {report : Failure → Report} {action : Eval α}
    (reports : ∀ failure, (report failure).failure = failure)
    (leaves : Leaves hosting.idle hosting.fails session.machine action) :
    hosting.ServesAt session (reporting report action) := by
  obtain ⟨idle, fails⟩ := leaves
  cases ran : action.run session.machine with
  | ok value machine =>
      rw [ran] at idle
      refine servesAt_of_none ?_ ?_
      · rw [run_reporting, ran]
        exact idle
      · rw [run_reporting, ran]
        rfl
  | error failure machine =>
      rw [ran] at idle fails
      constructor
      · rw [run_reporting, ran]
        exact idle
      · rw [run_reporting, ran]
        rintro _ ⟨⟩
        rw [reports]
        exact fails

theorem failure_atPosition (position : Position) (failure : Failure) :
    (Report.atPosition position failure).failure = failure := by
  cases failure <;> rfl

theorem serves_mapM {f : α → SessionM β} (serves : ∀ item, hosting.Serves (f item))
    (items : List α) : hosting.Serves (items.mapM f) := by
  induction items with
  | nil =>
      exact serves_pure []
  | cons item rest inductionHypothesis =>
      rw [List.mapM_cons]
      exact serves_bind (serves item) fun _ =>
        serves_bind inductionHypothesis fun _ => serves_pure _

/-! ## Running code -/

theorem serves_checkCancelled :
    hosting.Serves (reporting (fun failure => { failure }) Eval.checkCancelled) := by
  intro session idle
  refine servesAt_reporting (fun _ => rfl) ?_
  constructor
  · rw [Regime.run_checkCancelled]
    split
    · exact hosting.report session.machine.output _ idle
    · exact hosting.report session.machine.output _ idle
  · rw [Regime.run_checkCancelled]
    split
    · exact hosting.cancelled
    · trivial

theorem serves_execFrom (last : Value) {statements : List Stmt}
    (admitted : ∀ tree ∈ statements, hosting.stmt tree) :
    hosting.Serves (Session.execFrom last statements) := by
  have composes : SessionM.Composes fun _ => hosting.Serves := ⟨serves_pure, serves_bind⟩
  refine composes.execFrom serves_checkCancelled (fun statement member session idle => ?_) last
  exact servesAt_reporting (failure_atPosition _) (hosting.exec idle (admitted statement member))

theorem serves_evalTree {tree : Expr} (admitted : hosting.expr tree) :
    hosting.Serves (Session.evalTree tree) :=
  serves_bind serves_checkCancelled fun _ _ idle =>
    servesAt_reporting (failure_atPosition _) (hosting.eval idle admitted)

/-- The new realm is added before the source gets its number. -/
theorem servesAt_evalApart {text : String} (idle : hosting.idle session.machine)
    (admitted : hosting.expr (parseExpression session.sources text)) :
    hosting.ServesAt session (Session.evalApart text) := by
  let tree := parseExpression session.sources text
  have runs : (Session.evalApart text).run session =
      (reporting (.atPosition tree.span.start)
        (inRealm session.machine.parked.size (tree.eval Eval.apply))).run
        { machine := session.machine.found, sources := session.sources + 1 } := rfl
  have served : hosting.ServesAt { machine := session.machine.found, sources := session.sources + 1 }
      (reporting (.atPosition tree.span.start)
        (inRealm session.machine.parked.size (tree.eval Eval.apply))) :=
    servesAt_reporting (failure_atPosition _) (hosting.apart idle admitted)
  constructor
  · rw [runs]
    exact served.idle
  · rw [runs]
    exact served.fails

/-! ## The host's own part -/

theorem serves_bindGlobal (name : String) (value : Value) :
    hosting.Serves (modify fun session => session.bind name value) :=
  serves_modify fun _ idle => hosting.bind name value idle

theorem serves_convertFor (context : String) (value : HostValue) :
    hosting.Serves (Session.convertFor context value) := by
  refine serves_bind (serves_onStore value.extending_convert) fun converted => ?_
  cases converted with
  | ok value =>
      exact serves_pure value
  | error fault =>
      exact serves_throw rfl

theorem serves_call (name : String) (args : List HostValue) :
    hosting.Serves (Session.call name args) := by
  refine serves_get fun session => ?_
  split
  · exact serves_throw rfl
  · next function _ =>
    refine serves_bind (serves_mapM ?_ _) fun values => ?_
    · rintro ⟨arg, index⟩
      exact serves_convertFor _ arg
    · exact fun session idle => servesAt_reporting (fun _ => rfl) (hosting.call function values idle)

theorem serves_nameFunction (value : Value) (name : String) :
    hosting.Serves (onStore (modify fun store => store.nameFunction value name)) :=
  serves_onStore fun store => store.extends_nameFunction value name

theorem serves_define (name : String) (value : HostValue) :
    hosting.Serves (Session.define name value) :=
  serves_bind (serves_convertFor _ value) fun converted =>
    serves_bind (serves_nameFunction converted name) fun _ =>
      serves_bind (serves_bindGlobal name converted) fun _ => serves_pure converted

theorem serves_settle (name : String) (outcome : Outcome) :
    hosting.Serves (Session.settle name outcome) := by
  refine serves_get fun session => ?_
  split
  · refine serves_get fun later => ?_
    split
    · exact serves_onStore fun store => Store.extends_of_functions_eq rfl
    · exact serves_throw rfl
  · exact serves_throw rfl

/-! ## Plugins -/

/-- What is added to a report does not change the failure. -/
theorem ServesAt.during {action other : SessionM α} (served : hosting.ServesAt session action)
    (context : String)
    (runs : other.run session =
      match action.run session with
      | .ok value later => .ok value later
      | .error report later => .error (report.during context) later) :
    hosting.ServesAt session other := by
  obtain ⟨idle, fails⟩ := served
  cases ran : action.run session with
  | ok value later =>
      rw [ran] at idle runs
      refine servesAt_of_none ?_ ?_
      · rw [runs]
        exact idle
      · rw [runs]
        rfl
  | error report later =>
      rw [ran] at idle fails runs
      constructor
      · rw [runs]
        exact idle
      · rw [runs]
        rintro _ ⟨⟩
        exact fails report rfl

/-- The source of a function is evaluated only if it is well formed. -/
theorem serves_evalSource (plugin : Plugin) (name source : String) :
    hosting.Serves (plugin.evalSource name source) := by
  intro session idle
  refine servesAt_newSource idle ?_
  simp only
  split
  · exact serves_throw rfl _ idle
  · next wellFormed =>
    have admitted := hosting.wellFormed session.sources source wellFormed
    have evaluated := serves_evalTree admitted
      { session with sources := session.sources + 1 } idle
    refine evaluated.during (plugin.context name) ?_
    unfold EStateM.run
    dsimp only
    cases Session.evalTree (parseExpression session.sources source) _ <;> rfl

theorem serves_evalFunction (plugin : Plugin) (name source : String) :
    hosting.Serves (plugin.evalFunction name source) :=
  serves_bind (serves_evalSource plugin name source) fun value =>
    serves_bind (serves_nameFunction value name) fun _ => serves_pure value

theorem serves_merge (entries : List (String × Value)) : hosting.Serves (Plugin.merge entries) := by
  induction entries with
  | nil =>
      exact serves_pure []
  | cons entry rest inductionHypothesis =>
      obtain ⟨name, value⟩ := entry
      refine serves_get fun session => ?_
      split
      · exact serves_bind inductionHypothesis fun _ => serves_pure _
      · exact serves_bind (serves_bindGlobal name value) fun _ => inductionHypothesis

theorem serves_install (plugin : Plugin) : hosting.Serves plugin.install := by
  refine serves_bind (serves_mapM ?_ _) fun functions => serves_merge _
  rintro ⟨name, source⟩
  exact serves_bind (serves_evalFunction plugin name source) fun value => serves_pure (name, value)

/-! ## Requests -/

/-- Every request keeps the property, and reports only the failures that it allows. -/
theorem perform (idle : hosting.idle session.machine) {request : Request}
    (admitted : hosting.Admits session request) :
    hosting.idle (request.perform session).machine ∧
      ∀ report, request.report? session = some report → hosting.fails report.failure := by
  induction request generalizing session with
  | run file source =>
      have served : hosting.ServesAt session (Session.run file source) :=
        servesAt_newSource idle (serves_execFrom .null admitted _ idle)
      exact ⟨served.idle, served.fails⟩
  | exec statements =>
      have served : hosting.ServesAt session (Session.exec statements) :=
        serves_execFrom .null admitted session idle
      exact ⟨served.idle, served.fails⟩
  | eval text =>
      have served : hosting.ServesAt session (Session.eval text) :=
        servesAt_newSource idle (serves_evalTree admitted _ idle)
      exact ⟨served.idle, served.fails⟩
  | evalTree tree =>
      have served := serves_evalTree admitted session idle
      exact ⟨served.idle, served.fails⟩
  | evalApart text =>
      have served := servesAt_evalApart idle admitted
      exact ⟨served.idle, served.fails⟩
  | call name args =>
      have served := serves_call name args session idle
      exact ⟨served.idle, served.fails⟩
  | define name value =>
      have served := serves_define name value session idle
      exact ⟨served.idle, served.fails⟩
  | install plugin =>
      have served := serves_install plugin session idle
      exact ⟨served.idle, served.fails⟩
  | settle name outcome =>
      have served := serves_settle name outcome session idle
      exact ⟨served.idle, served.fails⟩
  | start cancelled =>
      refine ⟨hosting.report _ { cancelled } idle, fun report reported => ?_⟩
      cases reported
  | under context request inductionHypothesis =>
      have installed : hosting.idle (session.withContext context).machine :=
        hosting.report session.machine.output context idle
      obtain ⟨after, fails⟩ := inductionHypothesis installed admitted
      exact ⟨hosting.report _ session.machine.context after, fails⟩

variable (hosting) in
theorem performAll (idle : hosting.idle session.machine) {requests : List Request}
    (admitted : hosting.AdmitsAll session requests) :
    hosting.idle (requests.foldl Request.perform session).machine := by
  induction requests generalizing session with
  | nil =>
      exact idle
  | cons request rest inductionHypothesis =>
      exact inductionHypothesis (perform idle admitted.1).1 admitted.2

end Hosting

/-! ## Tasks

What a host runs in a session: statements, an expression, or a call of a value.  A task only evaluates,
so it keeps every regime in which its code may run: if it gives a value, the property of the regime holds
afterwards, and if it fails, it leaves what the regime says of its failure. -/

open SessionM

/-- What a host runs in a session. -/
inductive Task where
  | exec (statements : List Stmt)
  | eval (tree : Expr)
  | call (callee : Value) (args : List Value)

namespace Task

/-- Run a task. -/
def perform : Task → SessionM Value
  | exec statements => Session.exec statements
  | eval tree => Session.evalTree tree
  | call callee args => Session.callValue callee args

/-- The code of a task, outside of the functions that are created in it. -/
def code : Task → List Node
  | exec statements => statements.flatMap fun statement => statement.visit Node.stays
  | eval tree => tree.visit Node.stays
  | call _ _ => []

end Task

namespace Regime

variable {tags : Retagging} {regime : Regime tags} {world : regime.World} {session : Session}
  {α β : Type}

variable (regime world) in
/-- What a regime says of the session after an action. -/
def Answers : EStateM.Result Report Session α → Prop
  | .ok _ after => regime.holds world after.machine
  | .error report after => regime.fails world report.failure after.machine

/-- An action leads from every session with the property to what the regime says. -/
def Serves (regime : Regime tags) (world : regime.World) (action : SessionM α) : Prop :=
  ∀ session : Session, regime.holds world session.machine →
    regime.Answers world (action.run session)

/-- The property of the session after an action, if failures do not touch it. -/
theorem Answers.holds {result : EStateM.Result Report Session α}
    (answers : regime.Answers world result)
    (always : ∀ failure machine, regime.fails world failure machine → regime.holds world machine) :
    regime.holds world (sessionOf result).machine := by
  cases result with
  | ok value after => exact answers
  | error report after => exact always report.failure after.machine answers

theorem serves_pure (value : α) : regime.Serves world (pure value) :=
  fun _ held => held

theorem serves_bind {action : SessionM α} {next : α → SessionM β}
    (first : regime.Serves world action) (rest : ∀ value, regime.Serves world (next value)) :
    regime.Serves world (action >>= next) := by
  intro session held
  have answers := first session held
  rw [EStateM.run_bind]
  cases ran : action.run session with
  | ok value later =>
      rw [ran] at answers
      exact rest value later answers
  | error report later =>
      rw [ran] at answers
      exact answers

/-- An evaluation reports what it fails with. -/
theorem serves_reporting {report : Failure → Report} {first action : Eval α}
    (reports : ∀ failure, (report failure).failure = failure)
    (kept : regime.Keeps world first action) : regime.Serves world (reporting report action) := by
  intro session held
  have ends := (kept session.machine held).ends
  rw [Hosting.run_reporting]
  cases ran : action.run session.machine with
  | ok value machine =>
      rw [ran] at ends
      exact ends
  | error failure machine =>
      rw [ran] at ends
      change regime.fails world (report failure).failure machine
      rw [reports]
      exact ends

theorem serves_checkCancelled :
    regime.Serves world (reporting (fun failure => { failure }) Eval.checkCancelled) :=
  serves_reporting (fun _ => rfl) keeps_checkCancelled

theorem serves_task {task : Task} (allowed : regime.Allows world task.code) :
    regime.Serves world task.perform := by
  cases task with
  | exec statements =>
      have composes : SessionM.Composes fun _ => regime.Serves world := ⟨serves_pure, serves_bind⟩
      refine composes.execFrom serves_checkCancelled (fun statement member => ?_) .null
      have inCode : regime.Allows world (statement.visit Node.stays) :=
        fun node visited => allowed node (List.mem_flatMap_of_mem member visited)
      exact serves_reporting (Hosting.failure_atPosition _)
        (keeps_exec (keeps_apply world) statement inCode)
  | eval tree =>
      exact serves_bind serves_checkCancelled fun _ =>
        serves_reporting (Hosting.failure_atPosition _) (keeps_eval (keeps_apply world) tree allowed)
  | call callee args =>
      exact serves_reporting (fun _ => rfl) (keeps_call (keeps_apply world) callee args)

end Regime

end Reckon
