import Quiesce.Duration
import Quiesce.Phase
import Quiesce.Priority
/-!
# Errors

Three kinds of error: of one call to an activity, of a suspend or resume run, and of a
registration. Each has a stable label (`as_label`), a short message (`as_message`), and a text for
display. They are `ActivityError`, `SuspendError` and `RegisterError`.
-/

namespace Quiesce

/-! ## Errors of an activity -/

/-- How a call to an activity can fail. -/
inductive ActivityError
  /-- The activity reported a failure. -/
  | fail (text : String)
  /-- The activity panicked instead of returning. -/
  | panicked (info : String)
  /-- The activity saw that its call was no longer wanted and gave up. -/
  | canceled
deriving DecidableEq, Repr

namespace ActivityError

/-- The stable name of an error, for logs and metrics. -/
def label : ActivityError → String
  | fail _ => "activity_failed"
  | panicked _ => "activity_panicked"
  | canceled => "activity_canceled"

def message : ActivityError → String
  | fail text => "error: " ++ text
  | panicked info => "panic: " ++ info
  | canceled => "cancelled"

def display : ActivityError → String
  | fail text => "activity failed: " ++ text
  | panicked info => "activity panicked: " ++ info
  | canceled => "activity cancelled"

@[simp] theorem display_fail (text : String) : (fail text).display = "activity failed: " ++ text :=
  rfl

@[simp] theorem display_panicked (info : String) :
    (panicked info).display = "activity panicked: " ++ info := rfl

@[simp] theorem display_canceled : canceled.display = "activity cancelled" := rfl

end ActivityError

/-! ## Errors of a run -/

/-- How a suspend or resume run can end without success. -/
inductive SuspendError
  /-- An activity failed to prepare: nobody was suspended. -/
  | aborted (source : ActivityError)
  /-- An activity failed to suspend. -/
  | suspendFailed (source : ActivityError)
  /-- An activity failed to resume. -/
  | resumeFailed (source : ActivityError)
  /-- A resume or a reset came first. -/
  | canceled
  /-- The caller stopped waiting; the run itself goes on. -/
  | timeout (after : Duration)
deriving DecidableEq, Repr

namespace SuspendError

/-- The stable name of an error, for logs and metrics. -/
def label : SuspendError → String
  | aborted _ => "suspend_aborted"
  | suspendFailed _ => "suspend_failed"
  | resumeFailed _ => "resume_failed"
  | canceled => "suspend_canceled"
  | timeout _ => "completion_timeout"

def message : SuspendError → String
  | aborted source => "aborted: " ++ source.message
  | suspendFailed source => "suspend: " ++ source.message
  | resumeFailed source => "resume: " ++ source.message
  | canceled => "cancelled"
  | timeout after => "timeout: " ++ after.render

def display : SuspendError → String
  | aborted source => "suspend aborted during prepare: " ++ source.display
  | suspendFailed source => "suspend phase failed: " ++ source.display
  | resumeFailed source => "resume phase failed: " ++ source.display
  | canceled => "suspend cancelled"
  | timeout after => "timed out after " ++ after.render

/-- The attempt did not complete, but no activity broke while it was being suspended. -/
def isCancellation : SuspendError → Bool
  | aborted _ | canceled => true
  | suspendFailed _ | resumeFailed _ | timeout _ => false

/-- The failure of an activity behind the error, if there is one. -/
def activityError? : SuspendError → Option ActivityError
  | aborted source | suspendFailed source | resumeFailed source => some source
  | canceled | timeout _ => none

/-- The error of a run whose current phase failed with `source`. -/
def ofPhase (phase : Phase) (source : ActivityError) : SuspendError :=
  match phase with
  | .prepare => aborted source
  | .suspend => suspendFailed source
  | .resume => resumeFailed source

end SuspendError

/-- What every waiter of one run receives. -/
inductive Outcome
  | ok
  | error (e : SuspendError)
deriving DecidableEq, Repr

/-! ## Errors of a registration -/

/-- How a registration can fail. -/
inductive RegisterError
  /-- The level lies outside the accepted range; nothing was registered. -/
  | invalidPriority (level first last : Nat)
  /-- The server was not running and the activity failed to suspend; it stays registered. -/
  | lateSuspend (activity : String) (source : ActivityError)
deriving DecidableEq, Repr

namespace RegisterError

/-- The stable name of an error, for logs and metrics. -/
def label : RegisterError → String
  | invalidPriority .. => "register_invalid_priority"
  | lateSuspend .. => "register_late_suspend"

def message : RegisterError → String
  | invalidPriority level first last =>
    s!"priority {level} outside {first}..={last}"
  | lateSuspend activity source =>
    "late suspend of " ++ activity ++ ": " ++ source.message

def display : RegisterError → String
  | invalidPriority level first last =>
    s!"invalid priority {level}; expected {first}..={last}"
  | lateSuspend activity source =>
    "late registration suspend failed for '" ++ activity ++ "': " ++ source.display

end RegisterError

/-- The priority of a raw level; a level out of range is reported together with the range. -/
def Priority.ofLevel (level : Nat) : Except RegisterError Priority :=
  match ofLevel? level with
  | some p => .ok p
  | none => .error (.invalidPriority level first.level last.level)

end Quiesce
