import Reckon.Proofs.Scene.Steps
import Reckon.Proofs.Tree.Walk

/-!
# Malformed constructs are diagnosed

A run that fails because of a malformed construct fails with a diagnostic of one of the sources that the
host ran.  A walk that goes everywhere visits the body of every function, so the code of every function
that is ever created was looked at before it ran, however late it runs.  If no source has a diagnostic,
no run reaches a malformed construct.
-/

namespace Reckon

open Eval

variable (known : Diagnostic → Prop)

/-- Every diagnostic of a node is known. -/
def Node.Diagnosed (node : Node) : Prop :=
  ∀ inner ∈ node.nodes, ∀ diagnostic, inner.diagnostic? = some diagnostic → known diagnostic

/-- Code whose diagnostics are known, those in the functions it creates included. -/
def DiagnosedCode (code : List Node) : Prop :=
  ∀ node ∈ code, node.Diagnosed known

variable {known}

/-! ## Diagnostics -/

theorem diagnosedCode_of_walks {visited all : List Node} (walks : Walks visited all)
    (diagnosed : ∀ diagnostic ∈ all.filterMap Node.diagnostic?, known diagnostic) :
    DiagnosedCode known visited := by
  intro node member inner isInner diagnostic found
  have visitedToo := walks.closed node (walks.subset member) isInner
  exact diagnosed diagnostic (List.mem_filterMap.mpr ⟨inner, visitedToo, found⟩)

theorem Expr.diagnosedCode {tree : Expr}
    (diagnosed : ∀ diagnostic ∈ tree.diagnostics, known diagnostic) :
    DiagnosedCode known (tree.visit Node.stays) :=
  diagnosedCode_of_walks (tree.walks_visit Node.stays) diagnosed

theorem Stmt.visit_subset_visitAll (descend : Node → Bool) {trees : List Stmt} {tree : Stmt}
    (member : tree ∈ trees) : tree.visit descend ⊆ Stmt.visitAll descend trees := by
  induction trees with
  | nil =>
      cases member
  | cons first rest inductionHypothesis =>
      rw [Stmt.visitAll]
      rcases List.mem_cons.mp member with rfl | isRest
      · exact List.subset_append_left ..
      · exact List.subset_append_of_subset_right _ (inductionHypothesis isRest)

theorem Stmt.diagnosedCode {trees : List Stmt}
    (diagnosed : ∀ diagnostic ∈ Stmt.diagnostics trees, known diagnostic) {tree : Stmt}
    (member : tree ∈ trees) : DiagnosedCode known (tree.visit Node.stays) := by
  intro node isNode
  have walks := Stmt.walks_visitAll Node.stays trees
  exact diagnosedCode_of_walks walks diagnosed node
    (Stmt.visit_subset_visitAll Node.stays member isNode)

theorem Node.Diagnosed.isKnown {node : Node} (diagnosed : node.Diagnosed known)
    {diagnostic : Diagnostic} (found : node.diagnostic? = some diagnostic) : known diagnostic := by
  refine diagnosed node ?_ diagnostic found
  unfold Node.diagnostic? at found
  split at found
  · rw [nodes, Expr.visit]
    exact List.mem_singleton_self _
  · rw [nodes, Entry.visit]
    exact List.mem_singleton_self _
  · cases found

/-- The body of a function that is created stands below the node that creates it. -/
theorem Node.Diagnosed.created {node : Node} (diagnosed : node.Diagnosed known)
    {params : List String} {static : Option FrameId} {body : Body}
    (created : node.created? = some (params, static, body)) :
    DiagnosedCode known (body.visit Node.stays) := by
  intro inner member other isOther
  exact diagnosed other (Node.nodes_of_created created (body.nodes_of_mem_visit member isOther))

namespace Scene

/-! ## Scenes -/

variable (known) in
/-- The diagnostics of everything that runs, waits or can be called are known. -/
structure Diagnosed (scene : Scene) : Prop where
  code : DiagnosedCode known scene.code
  suspended : ∀ code ∈ scene.suspended, DiagnosedCode known code
  closures : ∀ function ∈ scene.point.machine.store.functions, ∀ realm parent static params body,
    function.code = .closure realm parent static params body →
      DiagnosedCode known (body.visit Node.stays)

variable {scene after : Scene}

/-- A later scene with the same code, in which every function was there before, or has a body whose
diagnostics are known, if it has one. -/
theorem Diagnosed.withFunctions (diagnosed : scene.Diagnosed known) (code : after.code = scene.code)
    (suspended : after.suspended = scene.suspended)
    (added : ∀ function ∈ after.point.machine.store.functions,
      (∃ earlier ∈ scene.point.machine.store.functions, earlier.code = function.code) ∨
      ∀ realm parent static params body, function.code = .closure realm parent static params body →
        DiagnosedCode known (body.visit Node.stays)) : after.Diagnosed known where
  code := by
    rw [code]
    exact diagnosed.code
  suspended := by
    rw [suspended]
    exact diagnosed.suspended
  closures := by
    intro function member realm parent static params body isClosure
    rcases added function member with ⟨earlier, isEarlier, same⟩ | new
    · exact diagnosed.closures earlier isEarlier realm parent static params body (same.trans isClosure)
    · exact new realm parent static params body isClosure

theorem Diagnosed.sameFunctions (diagnosed : scene.Diagnosed known) {machine : Machine}
    (same : machine.store.functions = scene.point.machine.store.functions) :
    (scene.withMachine machine).Diagnosed known := by
  refine diagnosed.withFunctions rfl rfl fun function member => .inl ⟨function, ?_, rfl⟩
  rw [← same]
  exact member

/-- What waited goes on. -/
theorem Diagnosed.resume (diagnosed : scene.Diagnosed known) {point : Configuration}
    (store : point.machine.store = scene.point.machine.store) {code : List Node}
    {others : List (List Node)} (suspended : scene.suspended = code :: others) :
    Diagnosed known { point, code, suspended := others } := by
  have waiting := diagnosed.suspended
  rw [suspended] at waiting
  obtain ⟨next, rest⟩ := List.forall_mem_cons.mp waiting
  refine ⟨next, rest, ?_⟩
  dsimp only
  rw [store]
  exact diagnosed.closures

theorem Step.diagnosed (step : Step (DiagnosedCode known) scene after)
    (diagnosed : scene.Diagnosed known) : after.Diagnosed known := by
  cases step with
  | start admitted _ => exact ⟨admitted, diagnosed.suspended, diagnosed.closures⟩
  | extend extended =>
      refine diagnosed.withFunctions rfl rfl fun function member => ?_
      rcases extended.added function member with homeless | earlier
      · refine .inr fun _ _ _ _ _ isClosure => ?_
        rw [isClosure] at homeless
        cases homeless
      · exact .inl earlier
  | report output context => exact diagnosed.sameFunctions rfl
  | define name value _ => exact diagnosed.sameFunctions rfl
  | assign value _ => exact diagnosed.sameFunctions rfl
  | declare value _ _ => exact diagnosed.sameFunctions rfl
  | create name member created =>
      refine diagnosed.withFunctions rfl rfl fun function isFunction => ?_
      rcases Array.mem_push.mp isFunction with earlier | rfl
      · exact .inl ⟨function, earlier, rfl⟩
      · refine .inr fun _ _ _ _ _ isClosure => ?_
        cases isClosure
        exact (diagnosed.code _ member).created created
  | enter bindings _ known =>
      obtain ⟨function, member, code⟩ := known
      refine ⟨diagnosed.closures function member _ _ _ _ _ code, ?_, diagnosed.closures⟩
      exact List.forall_mem_cons.mpr ⟨diagnosed.code, diagnosed.suspended⟩
  | leave _ suspended => exact diagnosed.resume (by rfl) suspended
  | visit known =>
      refine ⟨nofun, ?_, diagnosed.closures⟩
      exact List.forall_mem_cons.mpr ⟨diagnosed.code, diagnosed.suspended⟩
  | back _ suspended => exact diagnosed.resume (by rfl) suspended
  | found =>
      refine diagnosed.withFunctions rfl rfl fun function member => ?_
      rcases Array.mem_push.mp member with earlier | rfl
      · exact .inl ⟨function, earlier, rfl⟩
      · exact .inr fun _ _ _ _ _ isClosure => nomatch isClosure

theorem Run.diagnosed (run : Run (DiagnosedCode known) scene after)
    (diagnosed : scene.Diagnosed known) : after.Diagnosed known := by
  induction run with
  | refl => exact diagnosed
  | tail _ step inductionHypothesis => exact step.diagnosed inductionHypothesis

theorem diagnosed_initial (maxDepth : Int) (output : Output) :
    (initial maxDepth output).Diagnosed known := by
  refine ⟨nofun, nofun, fun function member _ _ _ _ _ isClosure => ?_⟩
  rw [Configuration.code_of_mem_initial member] at isClosure
  cases isClosure

/-- A malformed construct that is reached from a diagnosed scene is known. -/
theorem Diagnosed.reports (diagnosed : scene.Diagnosed known) {failure : Failure}
    (reports : scene.Reports (DiagnosedCode known) failure) (diagnostic : Diagnostic)
    (malformed : failure = .malformed diagnostic) : known diagnostic := by
  obtain ⟨later, run, node, member, found⟩ := reports diagnostic malformed
  exact ((run.diagnosed diagnosed).code node member).isKnown found

end Scene

/-! ## Sessions -/

namespace Request

/-- The diagnostics of the source of a request, if the request runs one. -/
def diagnostics (session : Session) : Request → List Diagnostic
  | run file source => Stmt.diagnostics (parseProgram session.sources file source)
  | exec statements => Stmt.diagnostics statements
  | eval text => (parseExpression session.sources text).diagnostics
  | evalTree tree => tree.diagnostics
  | evalApart text => (parseExpression session.sources text).diagnostics
  | under context request => diagnostics (session.withContext context) request
  | _ => []

/-- The diagnostics of the sources of requests that are made one after the other. -/
def diagnosticsAll : Session → List Request → List Diagnostic
  | _, [] => []
  | session, request :: rest =>
      request.diagnostics session ++ diagnosticsAll (request.perform session) rest

theorem diagnosticsAll_concat (session : Session) (requests : List Request) (request : Request) :
    diagnosticsAll session (requests ++ [request]) =
      diagnosticsAll session requests ++ request.diagnostics (requests.foldl perform session) := by
  induction requests generalizing session with
  | nil => simp [diagnosticsAll]
  | cons first rest inductionHypothesis => simp [diagnosticsAll, inductionHypothesis]

end Request

namespace Scene

variable (known) in
/-- What the requests of a host keep, if the diagnostics of its sources are known. -/
def diagnosedHosting (maxDepth : Int) (output : Output) : Hosting :=
  hosting (DiagnosedCode known) (Configuration.sound_initial maxDepth output)
    (rooted_initial maxDepth output) fun number text clean => Expr.diagnosedCode (by simp [clean])

theorem admits_of_diagnosed {maxDepth : Int} {output : Output} {session : Session}
    {request : Request} (diagnosed : ∀ diagnostic ∈ request.diagnostics session, known diagnostic) :
    (diagnosedHosting known maxDepth output).Admits session request := by
  induction request generalizing session with
  | run file source => exact fun tree member => Stmt.diagnosedCode diagnosed member
  | exec statements => exact fun tree member => Stmt.diagnosedCode diagnosed member
  | eval text => exact Expr.diagnosedCode diagnosed
  | evalTree tree => exact Expr.diagnosedCode diagnosed
  | evalApart text => exact Expr.diagnosedCode diagnosed
  | under context request inductionHypothesis => exact inductionHypothesis diagnosed
  | _ => trivial

theorem admitsAll_of_diagnosed {maxDepth : Int} {output : Output} {session : Session}
    {requests : List Request}
    (diagnosed : ∀ diagnostic ∈ Request.diagnosticsAll session requests, known diagnostic) :
    (diagnosedHosting known maxDepth output).AdmitsAll session requests := by
  induction requests generalizing session with
  | nil =>
      trivial
  | cons request rest inductionHypothesis =>
      obtain ⟨first, others⟩ := List.forall_mem_append.mp diagnosed
      exact ⟨admits_of_diagnosed first, inductionHypothesis others⟩

/-- A request fails because of a malformed construct only with a diagnostic of one of the sources. -/
theorem mem_diagnosticsAll_of_report (maxDepth : Int) (output : Output) (requests : List Request)
    (request : Request) {report : Report} {diagnostic : Diagnostic}
    (reported : request.report? (requests.foldl Request.perform (Session.new maxDepth output {})) =
      some report) (malformed : report.failure = .malformed diagnostic) :
    diagnostic ∈
      Request.diagnosticsAll (Session.new maxDepth output {}) (requests ++ [request]) := by
  let first := Session.new maxDepth output {}
  let known := fun diagnostic => diagnostic ∈ Request.diagnosticsAll first (requests ++ [request])
  have split : ∀ diagnostic ∈ Request.diagnosticsAll first requests ++
      request.diagnostics (requests.foldl Request.perform first), known diagnostic := by
    intro other member
    rwa [← Request.diagnosticsAll_concat] at member
  obtain ⟨earlier, last⟩ := List.forall_mem_append.mp split
  have idle : (diagnosedHosting known maxDepth output).idle first.machine :=
    idle_initial maxDepth output
  have later := (diagnosedHosting known maxDepth output).performAll idle
    (admitsAll_of_diagnosed earlier)
  have reports := (Hosting.perform later (admits_of_diagnosed last)).2 report reported
  exact (diagnosed_initial maxDepth output).reports reports diagnostic malformed

/-- Code without a malformed construct, also in the functions it creates. -/
abbrev WellFormedCode : List Node → Prop :=
  DiagnosedCode fun _ => False

/-- In a scene, an action is a run, and it does not fail because of a malformed construct. -/
structure Sheltered {α : Type} (scene : Scene) (action : Eval α) : Prop where
  traced : scene.TracesAt WellFormedCode action
  fails : ∀ failure machine, action.run scene.point.machine = .error failure machine →
    ∀ diagnostic, failure ≠ .malformed diagnostic

theorem TracesAt.sheltered {α : Type} {scene : Scene} {action : Eval α}
    (traced : scene.TracesAt WellFormedCode action) (diagnosed : scene.Diagnosed fun _ => False) :
    scene.Sheltered action := by
  refine ⟨traced, fun failure machine ran diagnostic malformed => ?_⟩
  have reports := traced.fails
  rw [ran] at reports
  exact diagnosed.reports reports diagnostic malformed

/-- If no source of a session has a diagnostic, no request fails because of a malformed construct; in
general it fails with one of the diagnostics.  The same is true within requests: the session is always
in a scene that steps of well-formed code lead to, and there neither the code that runs nor any call
fails so, not even one that is made to catch what it fails with. -/
theorem wellFormed_sessions_never_fail_malformed (maxDepth : Int) (output : Output) :
    (∀ (requests : List Request) (request : Request),
      Request.diagnosticsAll (Session.new maxDepth output {}) (requests ++ [request]) = [] →
      ∀ report,
        request.report? (requests.foldl Request.perform (Session.new maxDepth output {})) =
          some report →
        ∀ diagnostic, report.failure ≠ .malformed diagnostic) ∧
    (∀ (requests : List Request) (request : Request) report diagnostic,
      request.report? (requests.foldl Request.perform (Session.new maxDepth output {})) =
        some report →
      report.failure = .malformed diagnostic →
      diagnostic ∈
        Request.diagnosticsAll (Session.new maxDepth output {}) (requests ++ [request])) ∧
    (∀ requests : List Request,
      Request.diagnosticsAll (Session.new maxDepth output {}) requests = [] →
      (initial maxDepth output).Idle WellFormedCode
        (requests.foldl Request.perform (Session.new maxDepth output {})).machine) ∧
    ∀ scene, Run WellFormedCode (initial maxDepth output) scene →
      scene.Diagnosed (fun _ => False) ∧
      (∀ tree : Expr, tree.visit Node.stays ⊆ scene.code → scene.Sheltered (tree.eval Eval.apply)) ∧
      (∀ tree : Stmt, tree.visit Node.stays ⊆ scene.code → scene.Sheltered (tree.exec Eval.apply)) ∧
      (∀ callee args, scene.Sheltered (Eval.call Eval.apply callee args)) ∧
      ∀ callee args, scene.Sheltered (Eval.callFunction Eval.apply callee args) := by
  refine ⟨?_, ?_, ?_, ?_⟩
  · intro requests request clean report reported diagnostic malformed
    have member := mem_diagnosticsAll_of_report maxDepth output requests request reported malformed
    rw [clean] at member
    cases member
  · intro requests request report diagnostic
    exact mem_diagnosticsAll_of_report maxDepth output requests request
  · intro requests clean
    refine (diagnosedHosting (fun _ => False) maxDepth output).performAll
      (idle_initial maxDepth output) (admitsAll_of_diagnosed ?_)
    intro diagnostic member
    rw [clean] at member
    cases member
  · intro scene reached
    have diagnosed := reached.diagnosed (diagnosed_initial maxDepth output)
    refine ⟨diagnosed, ?_, ?_, ?_, ?_⟩
    · exact fun tree inCode => (tracesAt_eval inCode).sheltered diagnosed
    · exact fun tree inCode => (tracesAt_exec inCode).sheltered diagnosed
    · exact fun callee args => (tracesAt_call callee args).sheltered diagnosed
    · exact fun callee args => (tracesAt_callFunction callee args).sheltered diagnosed

/-- A source whose function catches what fails in another one. -/
theorem catching_source_never_fails_malformed :
    Request.diagnosticsAll (Session.new 100 (.text "") {})
        [.run "" "f = (x) => catch(() => x.y)\nf(null)".toUTF8.toList] = [] ∧
      ∀ report,
        (Request.run "" "f = (x) => catch(() => x.y)\nf(null)".toUTF8.toList).report?
          (Session.new 100 (.text "") {}) = some report →
        ∀ diagnostic, report.failure ≠ .malformed diagnostic := by
  have clean : Request.diagnosticsAll (Session.new 100 (.text "") {})
      [.run "" "f = (x) => catch(() => x.y)\nf(null)".toUTF8.toList] = [] := by
    decide +kernel
  exact ⟨clean, (wellFormed_sessions_never_fail_malformed 100 (.text "")).1 [] _ clean⟩

end Scene

end Reckon
