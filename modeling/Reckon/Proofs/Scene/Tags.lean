import Reckon.Proofs.Parsing.Scoping
import Reckon.Proofs.Scene.Places

/-!
# Tags and activations

A variable of a source is tagged with the frame of a function around it.  When its code runs, every
function around the code has an activation around the current one, in the same order.  So wherever a
tagged variable is read, assigned or declared, there is an activation of its frame.
-/

namespace Reckon

/-! ## Scoped code -/

namespace Scoped

variable {frames : List FrameId} {node : Node}

/-- What a walk reaches without entering a function is within the same functions. -/
theorem of_mem_visit (isScoped : Scoped frames node) {below : Node}
    (member : below ∈ node.visit Node.stays) : Scoped frames below := by
  induction isScoped with
  | var tagged =>
      rw [Node.visit, Expr.visit] at member
      rw [List.mem_singleton.mp member]
      exact .var tagged
  | function fresh inside =>
      rw [Node.visit_eq, Node.above] at member
      rw [List.mem_singleton.mp member]
      exact .function fresh inside
  | node other stays children inductionHypothesis =>
      rw [Node.visit_eq, Node.above, if_pos stays] at member
      rcases List.mem_cons.mp member with rfl | deeper
      · exact .node other stays children
      · obtain ⟨child, isChild, within⟩ := List.mem_flatMap.mp deeper
        exact inductionHypothesis child isChild within

/-- The children of a node that is no function are within the same functions. -/
theorem child (isScoped : Scoped frames node) (stays : node.stays = true) {child : Node}
    (member : child ∈ node.children) : Scoped frames child := by
  cases isScoped with
  | var _ => cases member
  | function _ _ => cases stays
  | node _ _ children => exact children child member

/-- The body of a function is within it, and the body of a definition is where the definition is. -/
theorem body {params : List String} {static : Option FrameId} {body : Body}
    (isScoped : Scoped frames node) (created : node.created? = some (params, static, body)) :
    Scoped (static.toList ++ frames) body.root ∧
      (frames.Nodup → (static.toList ++ frames).Nodup) := by
  unfold Node.created? at created
  split at created
  · cases created
    cases isScoped with
    | function fresh inside => exact ⟨inside, List.nodup_cons.mpr ∘ .intro fresh⟩
    | node _ stays _ => cases stays
  · split at created
    · cases created
      exact ⟨isScoped.child rfl (.tail _ (.head _)), id⟩
    · cases created
  · cases created

/-- The frame of a variable that stands in a node is one of those around it. -/
theorem mem_of_occurrence (isScoped : Scoped frames node) {name : Variable}
    (occurs : name ∈ node.occurrences) {frame : FrameId} (tagged : name.frame = some frame) :
    frame ∈ frames := by
  have ofVariable (within : Scoped frames (.expr (.var name))) : frame ∈ frames := by
    cases within with
    | var known => exact known frame tagged
    | node other _ _ => exact absurd rfl (other name)
  unfold Node.occurrences at occurs
  split at occurs
  · cases List.mem_singleton.mp occurs
    exact ofVariable isScoped
  · unfold Node.declared at occurs
    split at occurs
    · next value _ =>
      cases List.mem_singleton.mp occurs
      refine ofVariable (isScoped.child rfl ?_)
      cases value <;> exact .head _
    · refine ofVariable (isScoped.child rfl (List.mem_append_left _ ?_))
      rw [variableNodes, variableNodes, ← List.map_append]
      exact List.mem_map_of_mem occurs
    · cases occurs

end Scoped

/-- Code of a source. -/
inductive ParsedCode : List Node → Prop
  | expression (number : Nat) (text : String) :
      ParsedCode ((parseExpression number text).visit Node.stays)
  | statement {number : Nat} {file : String} {bytes : List UInt8} {tree : Stmt} :
      tree ∈ parseProgram number file bytes → ParsedCode (tree.visit Node.stays)

/-- Code that stands within functions of a source is scoped there, and these have different frames. -/
theorem Stands.scoped_of_parsed {frames : List FrameId} {code : List Node}
    (stands : Stands ParsedCode frames code) :
    (∀ node ∈ code, Scoped frames node) ∧ (code ≠ [] → frames.Nodup) := by
  induction stands with
  | idle frames => exact ⟨nofun, fun some => absurd rfl some⟩
  | program parsed =>
      refine ⟨fun node member => ?_, fun _ => .nil⟩
      cases parsed with
      | expression number text => exact (scoped_parseExpression number text).of_mem_visit member
      | statement inProgram => exact (scoped_parseProgram _ _ _ inProgram).of_mem_visit member
  | inside _ member created inductionHypothesis =>
      obtain ⟨areScoped, distinct⟩ := inductionHypothesis
      obtain ⟨inside, fresh⟩ := (areScoped _ member).body created
      refine ⟨fun node within => ?_, fun _ => fresh (distinct (List.ne_nil_of_mem member))⟩
      rw [Body.visit_eq_root] at within
      exact inside.of_mem_visit within

/-! ## Owners -/

/-- The activation at a place around the current one has the frame of a variable, and this is where the
variable is looked up and set. -/
structure Machine.Owns (machine : Machine) (name : Variable) (frame : FrameId) (place : Nat)
    (activation : Activation) : Prop where
  owner : machine.arena.owner? machine.current (some frame) = some place
  onChain : (place, activation) ∈ machine.arena.chain machine.current
  static : activation.static = some frame
  read : machine.read? name = (activation.bindings.get? name.name <|>
    machine.arena.lookup? machine.current name.name <|> Builtin.lookup? name.name)
  assignee : machine.assignee name = place
  declaree : machine.declaree name = place

theorem Machine.exists_owns {machine : Machine} {name : Variable} {frame : FrameId}
    (tagged : name.frame = some frame)
    (member : frame ∈ machine.arena.statics machine.current) :
    ∃ place activation, machine.Owns name frame place activation := by
  obtain ⟨place, activation, owner, onChain, static⟩ := Arena.owner?_of_mem_statics member
  have isTagged : machine.tagged? name = some place := by
    rw [tagged?, tagged]
    exact owner
  have bindings : machine.arena.bindings place = activation.bindings := by
    rw [Arena.bindings, Arena.getElem?_of_mem_chainFrom onChain]
    rfl
  refine ⟨place, activation, owner, onChain, static, ?_, ?_, ?_⟩
  · rw [read?, isTagged, Option.bind_some, bindings]
  · rw [assignee, isTagged, Option.getD_some]
  · rw [declaree, tagged]
    exact congrArg (Option.getD · _) owner

/-- The trees that a request brings along are those of sources. -/
def Request.IsParsed : Request → Prop
  | exec statements => ∀ tree ∈ statements, ∃ number file bytes, tree ∈ parseProgram number file bytes
  | evalTree tree => ∃ number text, tree = parseExpression number text
  | under _ request => IsParsed request
  | _ => True

namespace Hosting

variable {hosting : Hosting}
  (exprs : ∀ number text, hosting.expr (parseExpression number text))
  (stmts : ∀ number file bytes tree, tree ∈ parseProgram number file bytes → hosting.stmt tree)

include exprs stmts

/-- A host may run sources if all trees of sources are among those that it may run. -/
theorem admits_of_isParsed {session : Session} {request : Request} (parsed : request.IsParsed) :
    hosting.Admits session request := by
  induction request generalizing session with
  | run file source => exact stmts _ file source
  | exec statements =>
      intro tree member
      obtain ⟨number, file, bytes, inProgram⟩ := parsed tree member
      exact stmts number file bytes tree inProgram
  | eval text => exact exprs _ text
  | evalTree tree =>
      obtain ⟨number, text, rfl⟩ := parsed
      exact exprs number text
  | evalApart text => exact exprs _ text
  | under context request inductionHypothesis => exact inductionHypothesis parsed
  | _ => trivial

theorem admitsAll_of_isParsed {session : Session} {requests : List Request}
    (parsed : ∀ request ∈ requests, request.IsParsed) : hosting.AdmitsAll session requests := by
  induction requests generalizing session with
  | nil => trivial
  | cons request rest inductionHypothesis =>
      obtain ⟨first, others⟩ := List.forall_mem_cons.mp parsed
      exact ⟨admits_of_isParsed exprs stmts first, inductionHypothesis others⟩

end Hosting

namespace Scene

/-- What the requests of a host keep, if it runs only sources. -/
def parsedHosting (maxDepth : Int) (output : Output) : Hosting :=
  hosting ParsedCode (Configuration.sound_initial maxDepth output) (rooted_initial maxDepth output)
    fun number text _ => .expression number text

theorem admitsAll_of_isParsed {maxDepth : Int} {output : Output} {session : Session}
    {requests : List Request} (parsed : ∀ request ∈ requests, request.IsParsed) :
    (parsedHosting maxDepth output).AdmitsAll session requests :=
  Hosting.admitsAll_of_isParsed ParsedCode.expression (fun _ _ _ _ => ParsedCode.statement) parsed

/-- Whatever sources a host runs in a session, the session is always in a scene that steps of their code
lead to, also within requests.  In such a scene the frames of the activations from the current one
outwards are those of the functions around the code that runs, and the same is true of the functions
that were created and of what waits.  So every tagged variable of the code has an activation of its
frame around the current one. -/
theorem tagged_variables_have_activations (maxDepth : Int) (output : Output) :
    (∀ requests : List Request, (∀ request ∈ requests, request.IsParsed) →
      (initial maxDepth output).Idle ParsedCode
        (requests.foldl Request.perform (Session.new maxDepth output {})).machine) ∧
    ∀ scene, Run ParsedCode (initial maxDepth output) scene →
      (∀ tree : Expr, tree.visit Node.stays ⊆ scene.code →
        scene.TracesAt ParsedCode (tree.eval Eval.apply)) ∧
      (∀ tree : Stmt, tree.visit Node.stays ⊆ scene.code →
        scene.TracesAt ParsedCode (tree.exec Eval.apply)) ∧
      (∀ callee args, scene.TracesAt ParsedCode (Eval.call Eval.apply callee args)) ∧
      scene.Placed ParsedCode ∧
      Stands ParsedCode (scene.point.machine.arena.statics scene.point.machine.current) scene.code ∧
      (scene.code ≠ [] →
        (scene.point.machine.arena.statics scene.point.machine.current).Nodup) ∧
      ∀ node ∈ scene.code, ∀ name ∈ node.occurrences, ∀ frame, name.frame = some frame →
        ∃ place activation, scene.point.machine.Owns name frame place activation := by
  constructor
  · intro requests parsed
    exact (parsedHosting maxDepth output).performAll (idle_initial maxDepth output)
      (admitsAll_of_isParsed parsed)
  · intro scene reached
    have placed := reached.placed (Configuration.sound_initial maxDepth output)
      (placed_initial maxDepth output)
    obtain ⟨areScoped, distinct⟩ := placed.here.scoped_of_parsed
    refine ⟨fun _ => tracesAt_eval, fun _ => tracesAt_exec, tracesAt_call, placed, placed.here,
      distinct, ?_⟩
    intro node member name occurs frame tagged
    exact Machine.exists_owns tagged ((areScoped node member).mem_of_occurrence occurs tagged)

end Scene

end Reckon
