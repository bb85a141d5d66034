import Reckon.Proofs.Parsing.Entrances
import Reckon.Proofs.Session.Hosting
import Reckon.Proofs.Arena.Restoration

/-!
# Evaluating and running an expression

A session evaluates a tree or runs statements.  Either way it looks at the context, evaluates and reports
a failure at the place where the tree starts.  Where nothing is written, running does nothing at all and
evaluating looks at the context in vain; the context is the session's own again afterwards.
-/

namespace Reckon.Session

open Reckon.SessionM

theorem reporting_map {α β : Type} (report : Failure → Report) (action : Eval α) (change : α → β) :
    reporting report (change <$> action) = change <$> reporting report action := by
  funext session
  change reporting report (EStateM.map change action) session =
    EStateM.map change (reporting report action) session
  rw [reporting, EStateM.map, EStateM.map, reporting]
  cases action session.machine <;> rfl

/-- A program of one expression does what evaluating the expression does. -/
theorem exec_expr (tree : Expr) : exec [.expr tree] = evalTree tree := by
  have evaluated : (Stmt.expr tree).exec Eval.apply = Completion.normal <$> tree.eval Eval.apply := by
    rw [Stmt.exec, map_eq_pure_bind]
  rw [exec, execFrom, evaluated, reporting_map]
  simp only [bind_map_left, execFrom, isResult, if_true, bind_pure]
  rfl

theorem run_look {session : Session} (going : session.machine.isCancelled = false)
    (report : Failure → Report) :
    (reporting report Eval.checkCancelled).run session =
      .ok () { session with machine := session.machine.pass } := by
  have looked := Regime.run_checkCancelled session.machine
  rw [going, if_neg (by decide)] at looked
  rw [Hosting.run_reporting, looked]

theorem run_under_empty (span : Span) {context : Context} (live : context.isDue = false)
    (session : Session) :
    (under context (evalTree (.empty span))).run session = .ok .null session := by
  have going : (session.withContext context).machine.isCancelled = false := by
    change (context.isDue && _) = false
    rw [live, Bool.false_and]
  have evaluated : (evalTree (.empty span)).run (session.withContext context) =
      .ok .null (session.withContext context.pass) := by
    rw [evalTree, EStateM.run_bind, run_look going]
    rfl
  rw [run_under, evaluated]
  rfl

/-- A session cannot tell running the program of an expression from evaluating the expression. -/
theorem run_under_program (tree : Expr) {context : Context} (live : context.isDue = false)
    (session : Session) :
    (under context (exec tree.program)).run session = (under context (evalTree tree)).run session := by
  cases tree with
  | empty span =>
      rw [run_under_empty span live]
      rfl
  | _ => rw [← exec_expr]; rfl

/-- The number of a source is drawn before anything else, and the context does not see it. -/
theorem run_under_newSource {α : Type} (context : Context) (action : Nat → SessionM α)
    (session : Session) :
    (under context (newSource >>= action)).run session =
      (under context (action session.sources)).run
        { session with sources := session.sources + 1 } :=
  rfl

/-- A source that is one expression, clean from end to end, and does not start like another statement is
the program of this expression: the trees are the same, running the one does what evaluating the other
does, and so do a session's requests for the one and the other. -/
theorem running_is_evaluating (source : Nat) (bytes : List UInt8) {tree : Expr}
    (plain : ∀ first ∈ Lexeme.opening? (Lexeme.scan "" bytes), first.token.startsStatement = false)
    (read : (Parsed.expression source (Lexeme.scan "" bytes)).tree = tree)
    (clean : tree.diagnostics = []) :
    parseProgram source "" bytes = (if tree.isEmpty then [] else [.expr tree]) ∧
      ∀ context session, context.isDue = false →
        (under context (exec (parseProgram source "" bytes))).run session =
            (under context (evalTree tree)).run session ∧
          ∀ text : String, text.toUTF8.toList = bytes → session.sources = source →
            (under context (Session.run "" bytes)).run session =
              (under context (Session.eval text)).run session := by
  subst read
  have program : parseProgram source "" bytes =
      (Parsed.expression source (Lexeme.scan "" bytes)).tree.program := by
    rw [parseProgram, Parsed.statements_eq_program source _ plain clean]
  refine ⟨program, fun context session live => ⟨?_, ?_⟩⟩
  · rw [program, run_under_program _ live]
  · rintro text rfl rfl
    rw [Session.run, Session.eval, run_under_newSource, run_under_newSource, program,
      run_under_program _ live]
    rfl

/-- A product over two lines, with semicolons around it. -/
theorem running_a_product_is_evaluating :
    let text := "; 2 *\n x; ;\n"
    let bytes := text.toUTF8.toList
    let tree := (Parsed.expression 0 (Lexeme.scan "" bytes)).tree
    (∀ first ∈ Lexeme.opening? (Lexeme.scan "" bytes), first.token.startsStatement = false) ∧
      tree.diagnostics = [] ∧ ({} : Context).isDue = false ∧
      parseProgram 0 "" bytes = [.expr tree] ∧
      (under {} (Session.run "" bytes)).run default = (under {} (Session.eval text)).run default := by
  have plain : ∀ first ∈ Lexeme.opening? (Lexeme.scan "" "; 2 *\n x; ;\n".toUTF8.toList),
      first.token.startsStatement = false := by decide +kernel
  have clean : (Parsed.expression 0 (Lexeme.scan "" "; 2 *\n x; ;\n".toUTF8.toList)).tree.diagnostics =
      [] := by
    rw [← List.isEmpty_iff]
    decide +kernel
  have written : (Parsed.expression 0 (Lexeme.scan "" "; 2 *\n x; ;\n".toUTF8.toList)).tree.isEmpty =
      false := by decide +kernel
  obtain ⟨program, same⟩ := running_is_evaluating 0 _ plain rfl clean
  rw [written] at program
  exact ⟨plain, clean, rfl, program, (same {} default rfl).2 _ rfl rfl⟩

end Reckon.Session
