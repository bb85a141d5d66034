import Mathlib.Data.List.Nodup
import Mathlib.Data.List.Perm.Basic
import Reckon.Value.Future

/-!
# Parties around a future

Any number of parties complete a future and register callbacks with it, in any order.  A call changes
the future and gets its answer in one step; a callback that is due by then runs in a step of its own,
any time later.

Every outcome that a future has is the one it started with or that of the one completion that
succeeded.  Every callback that was accepted is in one place: it waits, is due, or was invoked.  A step
preserves both, so they hold at the end of any sequence of steps.
-/

namespace Reckon

namespace Future

/-- The outcome of a future, for everyone who asks. -/
def outcome? : Future → Option Outcome
  | pending _ | running _ _ => none
  | ending outcome | done outcome => some outcome

/-- The callback that waits. -/
def waiting? : Future → Option Callback
  | pending waiting | running waiting _ => waiting
  | ending _ | done _ => none

/-- What can be seen of a future. -/
structure Snapshot where
  /-- What it was completed with. -/
  result : Option Value
  /-- Why it failed. -/
  error : Option HostError
  /-- Whether it is completed. -/
  isDone : Bool

/-- What can be seen of a future now. -/
def snapshot (future : Future) : Snapshot :=
  match future.outcome? with
  | none => { result := none, error := none, isDone := false }
  | some (.ok result) => { result := some result, error := none, isDone := true }
  | some (.error error) => { result := none, error := some error, isDone := true }

section Specification

variable {future : Future} {outcome : Outcome}

theorem isDone_snapshot (future : Future) :
    future.snapshot.isDone = future.outcome?.isSome := by
  unfold snapshot
  rcases future.outcome? with _ | _ | _ <;> rfl

theorem waiting?_of_outcome? (settled : future.outcome? = some outcome) :
    future.waiting? = none := by
  cases future with
  | pending _ => cases settled
  | running _ _ => cases settled
  | ending _ => rfl
  | done _ => rfl

/-- A future without an outcome takes any, and gives up the callback that waits. -/
theorem complete_of_open (isOpen : future.outcome? = none) (outcome : Outcome) :
    future.complete outcome = .ok (.done outcome, future.waiting?) := by
  cases future with
  | pending _ => rfl
  | running _ _ => rfl
  | ending _ => cases isOpen
  | done _ => cases isOpen

theorem complete_of_settled (settled : future.outcome? = some outcome) (other : Outcome) :
    future.complete other = .error .completed := by
  cases future with
  | pending _ => cases settled
  | running _ _ => cases settled
  | ending _ => rfl
  | done _ => rfl

theorem register_of_settled (settled : future.outcome? = some outcome) (callback : Callback) :
    future.register callback = .ok (.done outcome, some outcome) := by
  cases future with
  | pending _ => cases settled
  | running _ _ => cases settled
  | ending _ => cases settled; rfl
  | done _ => cases settled; rfl

theorem register_of_waiting {other : Callback} (waiting : future.waiting? = some other)
    (callback : Callback) : future.register callback = .error .busy := by
  cases future with
  | pending _ => cases waiting; rfl
  | running _ _ => cases waiting; rfl
  | ending _ => cases waiting
  | done _ => cases waiting

/-- A future without an outcome, for which nothing waits, lets a callback wait. -/
theorem register_of_vacant (isOpen : future.outcome? = none) (vacant : future.waiting? = none)
    (callback : Callback) :
    ∃ next, future.register callback = .ok (next, none) ∧ next.outcome? = none ∧
      next.waiting? = some callback := by
  cases future with
  | pending _ => cases vacant; exact ⟨_, rfl, rfl, rfl⟩
  | running _ _ => cases vacant; exact ⟨_, rfl, rfl, rfl⟩
  | ending _ => cases isOpen
  | done _ => cases isOpen

end Specification

/-! ## Calls and callbacks -/

/-- Where a future comes from. -/
inductive Origin where
  /-- The host makes it, and anyone may complete it. -/
  | unsettled
  /-- It is made with its result. -/
  | resolved (result : Value)
  /-- An operation will complete it with an outcome, if nobody does so before. -/
  | operation (outcome : Outcome)

/-- A new future. -/
def Origin.future : Origin → Future
  | unsettled => .pending none
  | resolved result => .done (.ok result)
  | operation outcome => .running none outcome

/-- What a party asks of a future. -/
inductive Request where
  /-- Complete it with a value. -/
  | setResult (result : Value)
  /-- Complete it with an error, which may be missing. -/
  | setError (error : Option HostError)
  /-- Register a callback, which may be missing. -/
  | onComplete (isGiven : Bool)

/-- What a future is to be completed with. -/
def Request.outcome? : Request → Option Outcome
  | setResult result => some (.ok result)
  | setError error => some (.error (error.getD unexplained))
  | onComplete _ => none

/-- A request with its answer. -/
abbrev Call := Request × Except Refusal Unit

/-- The outcome of a completion that succeeded. -/
def Call.completion : Call → Option Outcome
  | (request, .ok ()) => request.outcome?
  | (_, .error _) => none

/-- A future, and what has happened around it. -/
structure Exchange where
  future : Future
  /-- The calls so far. The callback of a call is named by its place in this list. -/
  calls : List Call := []
  /-- The callbacks that are still to be invoked, with what they will receive. -/
  due : List (Callback × Outcome) := []
  /-- The invocations, with what each callback received. -/
  invoked : List (Callback × Outcome) := []

namespace Exchange

/-- A new future, and nothing has happened. -/
def start (origin : Origin) : Exchange where
  future := origin.future

/-- A call is answered. It may have changed the future, and a callback may be due now. -/
def answer (exchange : Exchange) (call : Call) (next : Future) (due : Option (Callback × Outcome)) :
    Exchange :=
  { exchange with
    future := next
    calls := exchange.calls ++ [call]
    due := exchange.due ++ due.toList }

/-- A call is answered and nothing else happens. -/
def note (exchange : Exchange) (call : Call) : Exchange :=
  exchange.answer call exchange.future none

/-- A party completes the future. -/
def complete (exchange : Exchange) (request : Request) (outcome : Outcome) : Exchange :=
  match exchange.future.complete outcome with
  | .ok (next, waiting) => exchange.answer (request, .ok ()) next (waiting.map (·, outcome))
  | .error refusal => exchange.note (request, .error refusal)

/-- A party registers a callback. -/
def register (exchange : Exchange) (request : Request) : Exchange :=
  match exchange.future.register exchange.calls.length with
  | .ok (next, outcome) =>
      exchange.answer (request, .ok ()) next (outcome.map (exchange.calls.length, ·))
  | .error refusal => exchange.note (request, .error refusal)

/-- A party makes a request. A callback that is missing is not registered. -/
def call (exchange : Exchange) : Request → Exchange
  | .setResult result => exchange.complete (.setResult result) (.ok result)
  | .setError error => exchange.complete (.setError error) (.error (error.getD unexplained))
  | .onComplete true => exchange.register (.onComplete true)
  | .onComplete false => exchange.note (.onComplete false, .ok ())

/-- A callback that is due is invoked. -/
def invoke (exchange : Exchange) (index : Nat) : Exchange :=
  match exchange.due[index]? with
  | some invocation =>
      { exchange with
        due := exchange.due.eraseIdx index
        invoked := exchange.invoked ++ [invocation] }
  | none => exchange

/-- A step of one of the parties. -/
inductive Action where
  | call (request : Request)
  | invoke (index : Nat)

/-- One step. -/
def perform (exchange : Exchange) : Action → Exchange
  | .call request => exchange.call request
  | .invoke index => exchange.invoke index

/-- Steps in the order in which they are taken. -/
def performAll (exchange : Exchange) (actions : List Action) : Exchange :=
  actions.foldl perform exchange

/-- The outcomes of the completions that succeeded. -/
def completions (exchange : Exchange) : List Outcome :=
  exchange.calls.filterMap Call.completion

/-- The future has accepted a callback. -/
def Accepted (exchange : Exchange) (callback : Callback) : Prop :=
  exchange.calls[callback]? = some (.onComplete true, .ok ())

/-- The callbacks that are due or were invoked. -/
def released (exchange : Exchange) : List Callback :=
  (exchange.due ++ exchange.invoked).map Prod.fst

/-- A callback waits for the outcome. -/
def Waits (exchange : Exchange) (callback : Callback) : Prop :=
  exchange.Accepted callback ∧ callback ∉ exchange.released

/-- The callbacks wherever they are. -/
def callbacks (exchange : Exchange) : List Callback :=
  exchange.future.waiting?.toList ++ exchange.released

/-- The outcome a future has is the one it started with or that of a completion, callbacks receive it,
only a completion or a waiting callback is a reason to refuse a call, and each accepted callback is in
one place. -/
structure Kept (origin : Origin) (exchange : Exchange) : Prop where
  outcome : exchange.future.outcome?.toList = origin.future.outcome?.toList ++ exchange.completions
  received : ∀ invocation ∈ exchange.due ++ exchange.invoked,
    exchange.future.outcome? = some invocation.2
  refused : ∀ request refusal, (request, .error refusal) ∈ exchange.calls →
    refusal = if request.outcome?.isSome then .completed else .busy
  nodup : exchange.callbacks.Nodup
  accepted : ∀ callback, callback ∈ exchange.callbacks ↔ exchange.Accepted callback

/-! ## Steps -/

variable {origin : Origin} {exchange : Exchange} {call : Call} {request : Request} {next : Future}
  {due : Option (Callback × Outcome)} {outcome : Outcome} {callback : Callback}

/-- The callbacks that a call adds. -/
def added (exchange : Exchange) : Call → List Callback
  | (.onComplete true, .ok ()) => [exchange.calls.length]
  | _ => []

theorem mem_added : callback ∈ exchange.added call ↔
    callback = exchange.calls.length ∧ call = (.onComplete true, .ok ()) := by
  unfold added
  split
  case h_1 => simp
  case h_2 other => exact iff_of_false List.not_mem_nil fun isAdded => other isAdded.2

theorem accepted_answer : (exchange.answer call next due).Accepted callback ↔
    exchange.Accepted callback ∨ callback ∈ exchange.added call := by
  simp only [Accepted, answer, mem_added]
  grind

theorem completions_answer : (exchange.answer call next due).completions =
    exchange.completions ++ call.completion.toList := by
  cases completion : call.completion <;> simp [completions, answer, completion]

/-- The callbacks stay where they were, or begin to be due, and the one that is added joins them. -/
theorem callbacks_answer (moved : next.waiting?.toList ++ due.toList.map Prod.fst =
    exchange.future.waiting?.toList ++ exchange.added call) :
    (exchange.answer call next due).callbacks.Perm (exchange.added call ++ exchange.callbacks) := by
  calc (exchange.answer call next due).callbacks
    _ = next.waiting?.toList ++ (exchange.due.map Prod.fst ++ due.toList.map Prod.fst ++
          exchange.invoked.map Prod.fst) := by
        simp only [callbacks, released, answer, List.map_append]
    _ |>.Perm (next.waiting?.toList ++ (due.toList.map Prod.fst ++ exchange.due.map Prod.fst ++
          exchange.invoked.map Prod.fst)) :=
        (List.perm_append_comm.append_right _).append_left _
    _ = exchange.future.waiting?.toList ++ exchange.added call ++ exchange.released := by
        rw [released, List.map_append, ← moved]
        simp only [List.append_assoc]
    _ |>.Perm (exchange.added call ++ exchange.callbacks) := by
        rw [callbacks, ← List.append_assoc]
        exact List.perm_append_comm.append_right _

/-- A call whose answer goes with what it did: the future has the outcome that it had or that of the
call, and the callbacks that wait or become due are the one that waited and the one that the call
adds. -/
theorem Kept.answer (kept : exchange.Kept origin)
    (outcome : next.outcome?.toList = exchange.future.outcome?.toList ++ call.completion.toList)
    (received : ∀ invocation ∈ due, next.outcome? = some invocation.2)
    (refused : ∀ refusal, call.2 = .error refusal →
      refusal = if call.1.outcome?.isSome then .completed else .busy)
    (moved : next.waiting?.toList ++ due.toList.map Prod.fst =
      exchange.future.waiting?.toList ++ exchange.added call) :
    (exchange.answer call next due).Kept origin where
  outcome := by
    calc next.outcome?.toList
      _ = exchange.future.outcome?.toList ++ call.completion.toList := outcome
      _ = origin.future.outcome?.toList ++ (exchange.completions ++ call.completion.toList) := by
          rw [kept.outcome, List.append_assoc]
      _ = origin.future.outcome?.toList ++ (exchange.answer call next due).completions := by
          rw [completions_answer]
  received invocation member := by
    have isNew : invocation ∈ exchange.due ++ exchange.invoked ∨ invocation ∈ due := by
      simp only [Exchange.answer, List.mem_append, Option.mem_toList] at member ⊢
      tauto
    rcases isNew with earlier | isDue
    · -- There was an outcome already, so the call has not added another one.
      rw [kept.received invocation earlier] at outcome
      cases settled : next.outcome? with
      | none =>
          rw [settled] at outcome
          cases outcome
      | some _ =>
          rw [settled] at outcome
          exact settled.trans (congrArg some (List.cons.inj outcome).1)
    · exact received invocation isDue
  refused request refusal member := by
    rcases List.mem_append.mp member with earlier | last
    · exact kept.refused request refusal earlier
    · cases List.mem_singleton.mp last
      exact refused refusal rfl
  nodup := by
    -- A callback is named by the place of its call, and all accepted ones have earlier places.
    have fresh : ∀ callback ∈ exchange.added call, callback ∉ exchange.callbacks := by
      intro callback member present
      have accepted := (kept.accepted callback).mp present
      rw [(mem_added.mp member).1, Accepted, List.getElem?_eq_none (Nat.le_refl _)] at accepted
      cases accepted
    refine (callbacks_answer moved).nodup_iff.mpr (List.nodup_append.mpr ⟨?_, kept.nodup, ?_⟩)
    · unfold added
      split
      · exact List.nodup_singleton _
      · exact List.nodup_nil
    · exact fun callback member other present equal => fresh callback member (equal ▸ present)
  accepted callback := by
    rw [(callbacks_answer moved).mem_iff, List.mem_append, accepted_answer, kept.accepted callback,
      or_comm]

theorem Kept.note (kept : exchange.Kept origin) (unsettling : call.completion = none)
    (unadded : exchange.added call = [])
    (refused : ∀ refusal, call.2 = .error refusal →
      refusal = if call.1.outcome?.isSome then .completed else .busy) :
    (exchange.note call).Kept origin := by
  refine kept.answer ?_ (fun _ isDue => nomatch isDue) refused ?_
  · rw [unsettling]
    exact (List.append_nil _).symm
  · rw [unadded]
    rfl

/-- A completion succeeds as long as there is no outcome; then the waiting callback is due. Once there
is an outcome, it is refused. -/
theorem call_completion (completes : request.outcome? = some outcome) :
    exchange.call request = exchange.complete request outcome := by
  cases request with
  | setResult _ => cases completes; rfl
  | setError _ => cases completes; rfl
  | onComplete _ => cases completes

theorem complete_of_open (isOpen : exchange.future.outcome? = none) :
    exchange.complete request outcome = exchange.answer (request, .ok ()) (.done outcome)
      (exchange.future.waiting?.map (·, outcome)) := by
  rw [complete, Future.complete_of_open isOpen]

theorem complete_of_settled (settled : exchange.future.outcome?.isSome) :
    exchange.complete request outcome = exchange.note (request, .error .completed) := by
  obtain ⟨_, settled⟩ := Option.isSome_iff_exists.mp settled
  rw [complete, Future.complete_of_settled settled]

theorem Kept.complete (kept : exchange.Kept origin) (completes : request.outcome? = some outcome) :
    (exchange.complete request outcome).Kept origin := by
  have unadded : ∀ answer, exchange.added (request, answer) = [] := by
    intro answer
    cases request with
    | setResult _ => rfl
    | setError _ => rfl
    | onComplete _ => cases completes
  cases settled : exchange.future.outcome? with
  | none =>
      rw [complete_of_open settled]
      refine kept.answer ?_ ?_ nofun ?_
      · rw [settled]
        exact congrArg Option.toList completes.symm
      · intro invocation isDue
        obtain ⟨_, -, rfl⟩ := Option.map_eq_some_iff.mp isDue
        rfl
      · rw [unadded]
        cases exchange.future.waiting? <;> rfl
  | some other =>
      rw [complete_of_settled (settled ▸ rfl)]
      refine kept.note rfl (unadded _) fun refusal isRefused => ?_
      cases isRefused
      exact (if_pos (completes ▸ rfl)).symm

theorem Kept.register (kept : exchange.Kept origin) :
    (exchange.register (.onComplete true)).Kept origin := by
  unfold Exchange.register
  cases settled : exchange.future.outcome? with
  | some outcome =>
      rw [register_of_settled settled]
      refine kept.answer ?_ ?_ nofun ?_
      · rw [settled]
        rfl
      · rintro _ ⟨⟩
        rfl
      · rw [waiting?_of_outcome? settled]
        rfl
  | none =>
      cases waiting : exchange.future.waiting? with
      | some other =>
          rw [register_of_waiting waiting]
          refine kept.note rfl rfl fun refusal isRefused => ?_
          cases isRefused
          rfl
      | none =>
          obtain ⟨next, registered, isOpen, waits⟩ :=
            register_of_vacant settled waiting exchange.calls.length
          rw [registered]
          refine kept.answer ?_ (fun _ isDue => nomatch isDue) nofun ?_
          · rw [settled, isOpen]
            rfl
          · rw [waiting, waits]
            rfl

theorem Kept.invoke (kept : exchange.Kept origin) (index : Nat) :
    (exchange.invoke index).Kept origin := by
  unfold Exchange.invoke
  split
  case h_2 => exact kept
  case h_1 invocation found =>
    obtain ⟨bound, rfl⟩ := List.getElem?_eq_some_iff.mp found
    have moved : (exchange.due.eraseIdx index ++ (exchange.invoked ++ [exchange.due[index]])).Perm
        (exchange.due ++ exchange.invoked) := by
      rw [← List.append_assoc]
      exact (List.perm_append_singleton _ _).trans
        ((List.getElem_cons_eraseIdx_perm bound).append_right exchange.invoked)
    have callbacks := (moved.map Prod.fst).append_left exchange.future.waiting?.toList
    exact {
      outcome := kept.outcome
      received := fun invocation member => kept.received invocation (moved.mem_iff.mp member)
      refused := kept.refused
      nodup := callbacks.nodup_iff.mpr kept.nodup
      accepted := fun callback => callbacks.mem_iff.trans (kept.accepted callback) }

theorem Kept.perform (kept : exchange.Kept origin) (action : Action) :
    (exchange.perform action).Kept origin := by
  cases action with
  | invoke index => exact kept.invoke index
  | call request =>
      match request with
      | .setResult _ => exact kept.complete rfl
      | .setError _ => exact kept.complete rfl
      | .onComplete true => exact kept.register
      | .onComplete false => exact kept.note rfl rfl nofun

theorem kept_start (origin : Origin) : (start origin).Kept origin where
  outcome := (List.append_nil _).symm
  received _ member := nomatch member
  refused _ _ member := nomatch member
  nodup := by cases origin <;> exact List.nodup_nil
  accepted _ := by cases origin <;> exact iff_of_false List.not_mem_nil nofun

theorem Kept.performAll (kept : exchange.Kept origin) (actions : List Action) :
    (exchange.performAll actions).Kept origin := by
  induction actions generalizing exchange with
  | nil => exact kept
  | cons action _ inductionHypothesis => exact inductionHypothesis (kept.perform action)

/-! ## What holds after any steps -/

/-- An outcome stays. -/
theorem outcome?_perform (settled : exchange.future.outcome? = some outcome) (action : Action) :
    (exchange.perform action).future.outcome? = some outcome := by
  have completed : ∀ request other,
      (exchange.complete request other).future.outcome? = some outcome := by
    intro request other
    rw [complete_of_settled (settled ▸ rfl)]
    exact settled
  cases action with
  | invoke index =>
      simp only [perform, invoke]
      split <;> exact settled
  | call request =>
      match request with
      | .setResult _ => exact completed _ _
      | .setError _ => exact completed _ _
      | .onComplete false => exact settled
      | .onComplete true =>
          simp only [perform, Exchange.call, register, register_of_settled settled]
          rfl

theorem outcome?_performAll (settled : exchange.future.outcome? = some outcome)
    (actions : List Action) :
    (exchange.performAll actions).future.outcome? = some outcome := by
  induction actions generalizing exchange with
  | nil => exact settled
  | cons action _ inductionHypothesis => exact inductionHypothesis (outcome?_perform settled action)

theorem Kept.length_completions_le (kept : exchange.Kept origin) :
    exchange.completions.length ≤ 1 := by
  have lengths := congrArg List.length kept.outcome
  rw [List.length_append] at lengths
  have atMostOne : exchange.future.outcome?.toList.length ≤ 1 := by
    cases exchange.future.outcome? <;> simp
  omega

/-- Once there is an outcome no callback waits, so the accepted ones are those that were released. -/
theorem Kept.count_released (kept : exchange.Kept origin)
    (settled : exchange.future.outcome? = some outcome) (accepted : exchange.Accepted callback) :
    exchange.released.count callback = 1 := by
  have released : exchange.callbacks = exchange.released := by
    rw [callbacks, waiting?_of_outcome? settled]
    rfl
  rw [← released]
  exact List.count_eq_one_of_mem kept.nodup ((kept.accepted callback).mpr accepted)

theorem Kept.count_invoked_le (kept : exchange.Kept origin) (callback : Callback) :
    (exchange.invoked.map Prod.fst).count callback ≤ 1 := by
  have part : (exchange.invoked.map Prod.fst).Sublist exchange.callbacks :=
    ((List.sublist_append_right _ _).map Prod.fst).trans (List.sublist_append_right _ _)
  exact List.nodup_iff_count_le_one.mp (kept.nodup.sublist part) callback

theorem Kept.mem_waiting? (kept : exchange.Kept origin) (waits : exchange.Waits callback) :
    exchange.future.waiting? = some callback := by
  rcases List.mem_append.mp ((kept.accepted callback).mpr waits.1) with waiting | released
  · exact Option.mem_toList.mp waiting
  · exact (waits.2 released).elim

/-- Whatever the parties do, in any order: at most one completion succeeds, and any other is refused
and changes nothing; what can be seen of the future stays once it is completed, and is never both a
result and an error; a callback that was accepted is invoked at most once, is due or was invoked once
there is an outcome, and receives this one; a callback that was rejected is not invoked; and no two
callbacks wait. -/
theorem futures_complete_once (origin : Origin) (actions : List Action) :
    let exchange := (start origin).performAll actions
    (exchange.completions.length ≤ 1 ∧
      exchange.future.outcome?.toList = origin.future.outcome?.toList ++ exchange.completions) ∧
    (∀ request, request.outcome?.isSome →
      (∀ refusal, (request, .error refusal) ∈ exchange.calls → refusal = .completed) ∧
      if exchange.future.snapshot.isDone then
        exchange.call request =
          { exchange with calls := exchange.calls ++ [(request, .error .completed)] }
      else (exchange.call request).calls = exchange.calls ++ [(request, .ok ())] ∧
        (exchange.call request).future.outcome? = request.outcome?) ∧
    (exchange.future.snapshot.isDone → ∀ later,
      (exchange.performAll later).future.snapshot = exchange.future.snapshot) ∧
    (exchange.future.snapshot.result = none ∨ exchange.future.snapshot.error = none) ∧
    (∀ callback, exchange.Accepted callback →
      (exchange.invoked.map Prod.fst).count callback ≤ 1 ∧
      (exchange.future.snapshot.isDone → exchange.released.count callback = 1)) ∧
    (∀ callback outcome, (callback, outcome) ∈ exchange.due ++ exchange.invoked →
      exchange.Accepted callback ∧ exchange.future.outcome? = some outcome) ∧
    (∀ callback refusal, exchange.calls[callback]? = some (.onComplete true, .error refusal) →
      refusal = .busy ∧ callback ∉ exchange.released) ∧
    ∀ first second, exchange.Waits first → exchange.Waits second → first = second := by
  intro exchange
  have kept : exchange.Kept origin := (kept_start origin).performAll actions
  refine ⟨⟨kept.length_completions_le, kept.outcome⟩, fun request completes => ⟨?_, ?_⟩, ?_, ?_,
    fun callback accepted => ⟨kept.count_invoked_le callback, ?_⟩, ?_, ?_, ?_⟩
  · intro refusal member
    rw [kept.refused request refusal member, if_pos completes]
  · obtain ⟨outcome, completes⟩ := Option.isSome_iff_exists.mp completes
    rw [call_completion completes, isDone_snapshot]
    split
    case isTrue settled =>
      rw [complete_of_settled settled, note, answer, Option.toList_none, List.append_nil]
    case isFalse isOpen =>
      rw [complete_of_open (Option.not_isSome_iff_eq_none.mp isOpen), completes]
      exact ⟨rfl, rfl⟩
  · intro isDone later
    rw [isDone_snapshot] at isDone
    obtain ⟨outcome, settled⟩ := Option.isSome_iff_exists.mp isDone
    simp only [snapshot, settled, outcome?_performAll settled later]
  · unfold snapshot
    rcases exchange.future.outcome? with _ | _ | _
    · exact .inl rfl
    · exact .inl rfl
    · exact .inr rfl
  · intro isDone
    rw [isDone_snapshot] at isDone
    obtain ⟨outcome, settled⟩ := Option.isSome_iff_exists.mp isDone
    exact kept.count_released settled accepted
  · intro callback outcome member
    have released : callback ∈ exchange.released := List.mem_map_of_mem member
    exact ⟨(kept.accepted callback).mp (List.mem_append_right _ released),
      kept.received _ member⟩
  · intro callback refusal rejected
    refine ⟨kept.refused _ refusal (List.mem_of_getElem? rejected), fun released => ?_⟩
    have accepted := (kept.accepted callback).mp (List.mem_append_right _ released)
    cases rejected.symm.trans accepted
  · intro first second firstWaits secondWaits
    exact Option.some.inj ((kept.mem_waiting? firstWaits).symm.trans (kept.mem_waiting? secondWaits))

/-- A callback registered before the first completion receives its outcome, whatever comes between. -/
example :
    ((start .unsettled).performAll
      [.call (.onComplete true), .call (.setResult .null), .call (.setError none),
        .call (.onComplete true), .invoke 0]).invoked = [(0, .ok .null)] :=
  rfl

end Exchange

end Future

end Reckon
