import Reckon.Value.Fault

/-!
# Futures

A future is a place for a result that is not there yet. It is completed once, with a value or with an
error. At most one callback waits for it, and it is due exactly once.
-/

namespace Reckon

/-- What a future was completed with. -/
abbrev Outcome := Except HostError Value

/-- A number that stands for a callback. -/
abbrev Callback := Nat

/-- A future. -/
inductive Future where
  /-- Not completed, perhaps with a callback that waits. -/
  | pending (waiting : Option Callback)
  /-- Not completed, perhaps with a callback that waits, with an operation in progress that takes a while
  and will complete it with an outcome. -/
  | running (waiting : Option Callback) (outcome : Outcome)
  /-- About to be completed with an outcome, before anything else is asked of it. -/
  | ending (outcome : Outcome)
  /-- Completed. -/
  | done (outcome : Outcome)
deriving Inhabited

namespace Future

/-- Why a future refuses an operation. -/
inductive Refusal where
  /-- It is completed already. -/
  | completed
  /-- Another callback waits. -/
  | busy
deriving DecidableEq, Repr

/-- The text of a refusal. -/
def Refusal.message : Refusal → String
  | completed => "future already completed"
  | busy => "future already has a pending callback"

/-- The error of a future that failed without saying why. -/
def unexplained : HostError := .fault { root := "future failed with nil error" }

/-- Whether a future is completed. -/
def isDone : Future → Bool
  | done _ => true
  | _ => false

/-- Whether a future is about to be completed. -/
def isEnding : Future → Bool
  | ending _ => true
  | _ => false

/-- Complete a future. The callback that waited, if there was one, is due now. -/
def complete (future : Future) (outcome : Outcome) :
    Except Refusal (Future × Option Callback) :=
  match future with
  | pending waiting | running waiting _ => .ok (.done outcome, waiting)
  | ending _ | done _ => .error .completed

/-- Register a callback. On a completed future it is due at once, with the outcome. -/
def register (future : Future) (callback : Callback) :
    Except Refusal (Future × Option Outcome) :=
  match future with
  | ending outcome | done outcome => .ok (.done outcome, some outcome)
  | pending none => .ok (.pending (some callback), none)
  | running none outcome => .ok (.running (some callback) outcome, none)
  | pending (some _) | running (some _) _ => .error .busy

end Future

end Reckon
