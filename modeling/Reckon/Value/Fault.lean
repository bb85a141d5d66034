import Reckon.Diagnostic
import Reckon.Value.Basic

/-!
# What can go wrong

An exception carries a value. A fault of the host is a message with what was being done when it
happened. A crash takes the host down with the run. Whatever ends a run early is one of the causes of
`Failure`.
-/

namespace Reckon

/-- A fault of the host: the root message, and what was being done, outermost first. -/
structure HostFault where
  /-- What was being done. -/
  contexts : List String := []
  /-- What went wrong. -/
  root : String
deriving DecidableEq, Repr, Inhabited

namespace HostFault

/-- The text of a fault. -/
def message (fault : HostFault) : String :=
  ": ".intercalate (fault.contexts ++ [fault.root])

/-- A fault while doing something more. -/
def during (fault : HostFault) (context : String) : HostFault :=
  { fault with contexts := context :: fault.contexts }

end HostFault

/-- An exception of the language. -/
structure Exception where
  /-- The value that was thrown. -/
  value : Value
  /-- The fault of the host behind it, if it was not thrown by a program. -/
  cause : Option HostFault := none
  /-- Whether the evaluator threw it because it does not know a construct. Nothing depends on this. -/
  unsupported : Bool := false
deriving Inhabited

/-- The exception a fault of the host is turned into. Its value is the message. -/
def HostFault.toException (fault : HostFault) (context : String) : Exception :=
  let annotated := fault.during context
  { value := .string annotated.message, cause := some annotated }

/-- What breaks off the run and the host with it. -/
inductive Crash where
  /-- A read at an index that is not below the length. -/
  | badIndex (index : Int) (length : Nat)
  /-- A number of elements that no list can have. -/
  | badLength
deriving DecidableEq, Repr, Inhabited

/-- The text of a crash. -/
def Crash.message : Crash → String
  | .badIndex index length =>
      "runtime error: index out of range [" ++ toString index ++ "]" ++
        if index < 0 then "" else " with length " ++ toString length
  | .badLength => "runtime error: makeslice: len out of range"

/-- Why a run ended early. -/
inductive Failure where
  /-- A malformed construct was reached. -/
  | malformed (diagnostic : Diagnostic)
  /-- A name is not bound. -/
  | unbound (position : Position) (name : String) (suggestion : Option String)
  /-- Calls are nested too deeply. -/
  | depthExceeded
  /-- The run was cancelled. -/
  | cancelled
  /-- An exception was thrown. -/
  | exception (thrown : Exception)
  /-- A function of the host failed. -/
  | host (fault : HostFault)
  /-- The run and its host broke off. -/
  | crashed (crash : Crash)
  /-- The run was longer than any run can be. -/
  | exhausted
deriving Inhabited

namespace Failure

/-- An exception with a message as its value. -/
def raise (message : String) : Failure :=
  .exception { value := .string message }

/-- The same exception, thrown by the evaluator because it does not know a construct. -/
def unsupported (message : String) : Failure :=
  .exception { value := .string message, unsupported := true }

/-- The failure of a function, as its caller sees it: a fault of the host becomes an exception that
names the function, and any other failure is passed on. -/
def calling (name : String) : Failure → Failure
  | .host fault => .exception (fault.toException (if name == "" then "native function" else name))
  | failure => failure

end Failure

/-- An error that a host returns: a fault of its own, or an exception that it passes on. -/
inductive HostError where
  /-- Something went wrong in the host. -/
  | fault (cause : HostFault)
  /-- An exception was thrown. -/
  | thrown (exception : Exception)
deriving Inhabited

/-- An error of the host ends the run that it is returned to. An exception that it passes on is its
own. -/
def HostError.failure : HostError → Failure
  | .fault cause => .host cause
  | .thrown exception => .exception { exception with unsupported := false }

/-- A failure as the host sees it, with what was being done, outermost first. -/
structure Report where
  /-- What was being done. -/
  contexts : List String := []
  /-- What went wrong. -/
  failure : Failure
deriving Inhabited

namespace Report

/-- The report of a failure at a place. Failures that know their place, cancellation and crashes are not
annotated. -/
def atPosition (position : Position) (failure : Failure) : Report :=
  match failure with
  | .malformed _ | .unbound .. | .cancelled | .crashed _ => { failure }
  | _ => { contexts := [position.render], failure }

/-- A report while doing something more. -/
def during (report : Report) (context : String) : Report :=
  { report with contexts := context :: report.contexts }

/-- The report of a fault of the host. -/
def ofHost (fault : HostFault) : Report :=
  { failure := .host fault }

end Report

end Reckon
