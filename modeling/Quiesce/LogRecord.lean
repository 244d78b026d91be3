import Quiesce.Event
import Quiesce.Text.Quoted
/-!
# Log records

A listener may write every event it hears as one record: a level, a message, the event's number,
and the particulars that events of this kind carry. This is `LogWriter`; how the records are
printed is left to whoever collects them.
-/

namespace Quiesce

inductive LogLevel
  | info
  | warn
  | debug
deriving DecidableEq, Repr

def LogLevel.name : LogLevel → String
  | info => "INFO"
  | warn => "WARN"
  | debug => "DEBUG"

structure LogRecord where
  level : LogLevel
  seq : Nat
  message : String
  /-- The fields besides the message, by name. -/
  fields : List (String × String)
deriving DecidableEq, Repr

/-- An optional number: `Some(2)` or `None`. -/
def Text.renderOption : Option Nat → String
  | some n => "Some(" ++ toString n ++ ")"
  | none => "None"

namespace LogRecord

def phaseField (e : Event) : String × String :=
  ("phase", Text.quoteOption (e.phase.map Phase.label))

def activityField (e : Event) : String × String :=
  ("activity", Text.quoteOption e.activity)

/-- On events about a listener the name is the listener's. -/
def subscriberField (e : Event) : String × String :=
  ("subscriber", Text.quoteOption e.activity)

def priorityField (e : Event) : String × String :=
  ("priority", Text.renderOption (e.priority.map Priority.level))

def reasonField (e : Event) : String × String :=
  ("reason", Text.quoteOption e.reason)

/-- The record of an event. The fields are those that events of its kind carry. -/
def ofEvent (e : Event) : LogRecord :=
  match e.kind with
  | .suspendStarted => ⟨.info, e.seq, "suspend started", []⟩
  | .suspendCancelled => ⟨.info, e.seq, "suspend cancelled", []⟩
  | .suspendComplete => ⟨.info, e.seq, "suspend complete", []⟩
  | .suspendFailed =>
    ⟨.warn, e.seq, "suspend failed",
      [phaseField e, activityField e, priorityField e, reasonField e]⟩
  | .resumeComplete => ⟨.info, e.seq, "resume complete", []⟩
  | .resumeFailed =>
    ⟨.warn, e.seq, "resume failed", [activityField e, priorityField e, reasonField e]⟩
  | .activityRegistered =>
    ⟨.debug, e.seq, "activity registered", [activityField e, priorityField e]⟩
  | .activityUnregistered =>
    ⟨.debug, e.seq, "activity unregistered", [activityField e, priorityField e]⟩
  | .subscriberOverflow =>
    ⟨.warn, e.seq, "subscriber overflow", [subscriberField e, reasonField e]⟩
  | .subscriberPanicked =>
    ⟨.warn, e.seq, "subscriber panicked", [subscriberField e, reasonField e]⟩

end LogRecord

end Quiesce
