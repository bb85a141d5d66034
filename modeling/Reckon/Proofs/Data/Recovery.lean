import Reckon.Proofs.Arena.Restoration
import Reckon.Proofs.Data.Parsing
import Reckon.Proofs.Session.Hosting

/-!
# Shown data reads back

Whatever a store shows of a value that is data, a session evaluates to a value that is the same data, with
the keys of all maps in the same order.
-/

namespace Reckon

open SessionM

/-- A session evaluates the text of data to a value that holds it. -/
theorem Session.eval_of_chars {data : Data} {text : String} (chars : text.toList = data.chars)
    {session : Session} (calm : session.machine.isCancelled = false) :
    ∃ result after, (eval text).run session = .ok result after ∧
      session.machine.store.AddsMaps after.machine.store ∧
      after.machine.store.Holds data result := by
  have denotes := Data.denotes_parseExpression chars session.sources
  obtain ⟨result, store, ran, adds, held⟩ :=
    denotes.forms Eval.apply session.machine.pass
  have looked : Eval.checkCancelled.run session.machine = .ok () session.machine.pass := by
    rw [Regime.run_checkCancelled, calm, if_neg Bool.false_ne_true]
  refine ⟨result, { machine := { session.machine.pass with store }, sources := session.sources + 1 },
    ?_, adds, held⟩
  have begun : (eval text).run session =
      (evalTree (parseExpression session.sources text)).run
        { session with sources := session.sources + 1 } := rfl
  rw [begun, evalTree, EStateM.run_bind, Hosting.run_reporting, looked]
  dsimp only
  rw [Hosting.run_reporting, ran]

/-- All data is held by some value, after some maps were added. -/
theorem Store.exists_holds (store : Store) (data : Data) :
    ∃ value after, store.AddsMaps after ∧ after.Holds data value := by
  have denotes := @Data.denotes_parseExpression data (.ofList data.chars) String.toList_ofList 0
  obtain ⟨value, after, -, adds, held⟩ := denotes.forms Eval.apply { (default : Machine) with store }
  exact ⟨value, after, adds, held⟩

/-- Shown data reads back: in any session, and under any context that is not cancelled, the text of a
value that is data is evaluated to the same data.  The result is identical to every value of the session
that is this data, so also to the shown value if the session shows it. -/
theorem shown_data_reads_back {shown : Store} {data : Data} {value : Value}
    (held : shown.Holds data value) (session : Session) {context : Context}
    (live : context.isDue = false) :
    ∃ result after,
      (under context (Session.eval (shown.render value))).run session = .ok result after ∧
        after.machine.store.Holds data result ∧
        ∀ other, session.machine.store.Holds data other →
          after.machine.store.Holds data other ∧
            after.machine.store.identical result other = true := by
  have calm : (session.withContext context).machine.isCancelled = false := by
    simp [Session.withContext, Machine.isCancelled, live]
  obtain ⟨result, after, ran, adds, resultHeld⟩ := Session.eval_of_chars held.toList_render calm
  refine ⟨result, after.withContext session.machine.context, ?_, resultHeld, ?_⟩
  · rw [run_under, ran]
  · intro other otherHeld
    have stillHeld := otherHeld.of_addsMaps adds
    exact ⟨stillHeld, resultHeld.identical stillHeld⟩

/-- The row `[1, -2]`. -/
def Grid.oneAndMinusTwo : Grid where
  rows := [[⟨1, by decide⟩, ⟨-2, by decide⟩]]
  cols := 2
  rows_ne_nil := List.cons_ne_nil _ _
  cols_pos := Nat.zero_lt_two
  length_of_mem := by decide
  countable := by decide

/-- A map with this row under one name. -/
def Data.underName (name : Name) : Data :=
  .map [.name name] (List.nodup_singleton _) fun _ => .matrix .oneAndMinusTwo

/-- The name `m`. -/
def Name.m : Name where
  first := 'm'
  rest := []
  isLetter_first := by decide
  isNameRest_rest := List.forall_mem_nil _
  ofWord_eq_name := by decide

theorem shown_row_reads_back :
    ∃ (shown : Store) (value : Value), shown.render value = "\x7bm: [1, -2]\x7d" ∧
      ∃ result after,
        (under {} (Session.eval (shown.render value))).run default = .ok result after ∧
          after.machine.store.Holds (.underName .m) result ∧
          ∀ other, (default : Session).machine.store.Holds (.underName .m) other →
            after.machine.store.Holds (.underName .m) other ∧
              after.machine.store.identical result other = true := by
  have one : Decimal.toInt? (Decimal.ofNat 1) = some 1 := Decimal.toInt?_ofNat (by decide)
  have two : Decimal.toInt? (Decimal.ofNat 2) = some 2 := Decimal.toInt?_ofNat (by decide)
  let cells := #[Number.real (Decimal.ofNat 1), .real (-Decimal.ofNat 2)]
  let shown : Store := { maps := #[.ofEntries [("m", .matrix ⟨1, 2, cells⟩)]] }
  have held : shown.Holds (.underName .m) (.map ⟨0⟩) := by
    refine .map Nat.one_pos rfl fun key => ?_
    obtain ⟨key, member⟩ := key
    cases List.mem_singleton.mp member
    have first : Whole.IsNumber ⟨1, by decide⟩ (.real (Decimal.ofNat 1)) := ⟨_, rfl, one⟩
    have second : Whole.IsNumber ⟨-2, by decide⟩ (.real (-Decimal.ofNat 2)) :=
      ⟨_, rfl, Decimal.toInt?_neg two (by decide)⟩
    exact .matrix rfl rfl (.cons first (.cons second .nil))
  refine ⟨shown, .map ⟨0⟩, ?_, shown_data_reads_back held default rfl⟩
  rw [← String.toList_inj, held.toList_render]
  decide

end Reckon
