import Quiesce.Context
import Quiesce.Error
/-!
# Activities

An activity guards a piece of the server's work. The controller asks it to prepare, to suspend or
to resume, and sees how the call ends. This is the trait `Activity` as its callers see it, with the
texts of `panic_info`. What an activity does during a call is its own affair: a history may end a
call in any way, and at any time.
-/

namespace Quiesce

/-- An activity: who it is, and the name it goes by. Two activities may share a name. -/
structure Activity where
  key : String
  name : String
deriving DecidableEq, Repr

inductive PanicPayload
  | text (s : String)
  /-- Anything that is not a text. -/
  | nonText
deriving DecidableEq, Repr

def PanicPayload.info : PanicPayload → String
  | text s => s
  | nonText => "non-string panic payload"

/-- What an activity is asked to do, with the context it is told. -/
inductive Request
  | prepare (context : SuspendContext)
  | suspend (context : SuspendContext)
  | resume (context : ResumeContext)
deriving DecidableEq, Repr

def Request.phase : Request → Phase
  | prepare _ => .prepare
  | suspend _ => .suspend
  | resume _ => .resume

inductive Ending
  /-- The activity did as asked. -/
  | returned
  | failed (e : ActivityError)
  /-- A panic while the activity was at work. -/
  | panicked (p : PanicPayload)
  /-- A panic while the call was still being made, before there was anything to wait for. Only an
  activity that builds by hand what is waited for can end a call so: hooks and methods written as
  asynchronous ones panic at work, so that no script of a simulation ends a call in this way. -/
  | panickedEarly (p : PanicPayload)
deriving DecidableEq, Repr

/-- The error a phase run sees in an ending, if any: a panic counts as a failure of the activity. -/
def Ending.error? : Ending → Option ActivityError
  | returned => none
  | failed e => some e
  | panicked p | panickedEarly p => some (.panicked p.info)

/-- A failed call as a phase run reports it: whose call, in which group, and why. -/
structure Failure where
  activity : String
  priority : Priority
  error : ActivityError
deriving DecidableEq, Repr

end Quiesce
