import Quiesce.Controller
import Quiesce.LogRecord
/-!
# What a scenario shows

The answers to single commands, the log of scripted calls, and the report on a step.
-/

namespace Quiesce.Simulation

inductive Reply
  | none
  | truth (b : Bool)
  | number (n : Nat)
  | priority (p : Option Priority)
  | state (s : State)
  | config (c : Config)
  /-- The number of listeners, and whether there are none. -/
  | listenerCount (n : Nat) (isEmpty : Bool)
  /-- Whether a completion has its outcome. -/
  | completion (isDone : Bool)
  /-- Whether an attempt is cancelled, and whether it has its outcome. -/
  | attempt (isCancelled isDone : Bool)
  /-- The outcome of a completion so far, with its diagnostic text if asked for. -/
  | peek (outcome? : Option Outcome) (inspected? : Option String)
  | receipts (items : List Receipt)
  | outcome (o : Outcome)
  | registered (r : RegisterResult)
  /-- The end of a direct call: its error, if it failed. -/
  | called (error? : Option ActivityError)
  | closed
  /-- The command made no sense. -/
  | badStep

/-! ## The log -/

inductive LogDetail
  | start (flags : String)
  | finish (result : String)
  | check (cancelled : Bool)
  | call (r : Reply)

structure LogEntry where
  actor : String
  /-- The phase of the call; a listener's entries have none. -/
  phase? : Option Phase
  /-- The priority the activity had when the call began. -/
  priority? : Option Priority
  detail : LogDetail

/-- What an entry is filed as. -/
def LogEntry.scene (e : LogEntry) : String :=
  match e.phase? with
  | some p => p.label
  | none => "event"

/-- Entries of one phase and one priority have no order of their own. -/
def LogEntry.sameGroup (a b : LogEntry) : Bool :=
  a.phase? = b.phase? && a.priority? = b.priority?

/-- The log in its canonical order: within each run of neighbours of one group by actor, otherwise
as things happened. -/
def canonicalLog (log : List LogEntry) : List LogEntry :=
  (log.splitBy LogEntry.sameGroup).flatMap fun group =>
    group.mergeSort fun a b => a.actor ≤ b.actor

/-- The marks of the context that a call was given. -/
def requestFlags : Request → String
  | .prepare c | .suspend c =>
    match c.starting, c.stopping with
    | true, true => "starting+stopping"
    | true, false => "starting"
    | false, true => "stopping"
    | false, false => ""
  | .resume c => if c.starting then "starting" else ""

/-- The end of a call as the log has it. -/
def endingResult : Ending → String
  | .returned => "ok"
  | .failed e => e.display
  | .panicked _ | .panickedEarly _ => "panic"

/-! ## The report on a step -/

inductive StepReply
  | one (r : Reply)
  | many (rs : List Reply)

/-- The events that one listener began to handle, or only their number. -/
inductive Heard
  | events (es : List Event)
  | count (n : Nat)

/-- Everything that a step brought about. -/
structure StepReport where
  reply : StepReply
  /-- The state after the step, if there is a controller. -/
  state? : Option State
  log : List LogEntry
  /-- Results that came in, by tag. -/
  done : List (String × Reply)
  /-- Listeners that began to handle events. -/
  heard : List (String × Heard)
  records : List LogRecord

end Quiesce.Simulation
