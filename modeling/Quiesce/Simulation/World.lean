import Quiesce.Controller.Action
import Quiesce.Simulation.Report
import Quiesce.Simulation.Script
import Quiesce.Waiter
/-!
# The world of a scenario

A world is a controller (or a hub of its own) among scripted activities and listeners, with a clock
and gates. What goes on in it at the same time is a list of *tasks*. A task is a stack of frames:
the uppermost one is at work, and hands its result to the one below.
-/

namespace Quiesce.Simulation

/-! ## Tasks -/

/-- The token that a script looks at. -/
inductive Watch
  /-- A token of the controller's. -/
  | token (t : Token)
  /-- A token that never changes. -/
  | fixed (cancelled : Bool)

/-- How far the foremost action of a script has got. -/
inductive Wait
  /-- Not begun. -/
  | fresh
  /-- Asleep until an instant. -/
  | until (instant : Nat)
  /-- At a gate that had been opened so often before. -/
  | gate (openings : Nat)
deriving DecidableEq, Repr

structure Play where
  actor : String
  /-- The phase of the call; none over an event. -/
  phase? : Option Phase
  priority? : Option Priority
  watch : Watch
  rest : Script
  wait : Wait := .fresh

/-- A piece of work in progress. -/
inductive Frame
  /-- Makes a call to an activity. -/
  | make (activity : String) (request : Request) (watch : Watch)
  /-- Plays a script to its end. -/
  | play (p : Play)
  /-- Has an answer ready. -/
  | answer (r : Reply)
  /-- Waits for an outcome. -/
  | await (completion : Completion) (waiter : Waiter)
  /-- Waits for workers to end. -/
  | closing (workers : List Nat)
  /-- Moves a run on until it is resolved. -/
  | drive (run : Nat)
  /-- Handles events, one after another. -/
  | worker (id : Nat)
  /-- Takes the end of a member's call. -/
  | member (call : Nat)
  /-- Takes the end of a late registration's call, and answers the registration. -/
  | late (call : Nat)
  /-- Takes the end of a direct call, and answers with it. -/
  | direct
  /-- Files an answer under a tag. -/
  | report (tag : String)

/-- A task: the work at hand on top. -/
abbrev Task := List Frame

/-- When the task has to go on even if nothing else happens. -/
def Task.deadline? (t : Task) : Option Nat :=
  match t.head? with
  | some (.play p) => match p.wait with
    | .until instant => some instant
    | _ => none
  | some (.await _ waiter) => waiter.deadline?
  | _ => none

/-! ## The world -/

/-- A gate, and how often it was opened. -/
structure Gate where
  isOpen : Bool := false
  openings : Nat := 0

inductive Engine
  | controller (c : Controller)
  | hub (h : Hub)

namespace Engine

def eventHub : Engine → Hub
  | controller c => c.hub
  | hub h => h

def controller? : Engine → Option Controller
  | controller c => some c
  | hub _ => none

end Engine

/-- The world between two moments. -/
structure World where
  engine : Engine
  activities : List (String × ActivityScript)
  listeners : List (String × ListenerScript)
  /-- The present instant, in nanoseconds; the clock moves in whole milliseconds. -/
  now : Nat := 0
  gates : List (String × Gate) := []
  receivers : List (String × Receiver) := []
  completions : List (String × Completion) := []
  attempts : List (String × Attempt) := []
  /-- How often an activity was called in a phase, or a listener heard an event. -/
  occasions : List ((String × Option Phase) × Nat) := []
  tasks : List Task := []
  log : Array LogEntry := #[]
  /-- Results since the last report, by tag. -/
  done : List (String × Reply) := []

/-- Files a value under a name, in place of an older one. -/
def assign {α β : Type} [DecidableEq α] (key : α) (value : β) (entries : List (α × β)) :
    List (α × β) :=
  (key, value) :: entries.filter fun entry => entry.1 ≠ key

namespace World

def hub (w : World) : Hub := w.engine.eventHub

def controller? (w : World) : Option Controller := w.engine.controller?

def activity? (w : World) (key : String) : Option Activity :=
  (w.activities.lookup key).map fun a => ⟨key, a.name⟩

def listener? (w : World) (key : String) : Option Listener :=
  (w.listeners.lookup key).map fun l => ⟨key, l.name, l.capacity⟩

/-- The gate of a name; a gate never heard of is closed. -/
def gate (w : World) (name : String) : Gate :=
  (w.gates.lookup name).getD {}

def isCancelled (w : World) : Watch → Bool
  | .token t => w.controller?.any fun c => c.isCancelled t
  | .fixed b => b

def spawn (w : World) (t : Task) : World :=
  { w with tasks := w.tasks ++ [t] }

def note (w : World) (e : LogEntry) : World :=
  { w with log := w.log.push e }

def file (w : World) (tag : String) (r : Reply) : World :=
  { w with done := assign tag r w.done }

/-! ## Acting on the engine

The engine changes through the actions of its own history alone. Whatever an action started becomes
a task. -/

/-- The workers that were admitted since there were `old` of them. -/
def welcomeWorkers (w : World) (old : Nat) : World :=
  (List.range' old (w.hub.workers.length - old)).foldl (fun w id => w.spawn [.worker id]) w

/-- The task of a call made by a run; a late registration's call is its caller's affair. -/
def callTask? (call : Call) (id : Nat) : Option Task :=
  match call.origin with
  | .run _ _ => some [.make call.activity.key call.request (.token call.token), .member id]
  | .late _ => none

/-- The effect of an action on a controller. -/
def act (w : World) (a : Action) : World :=
  match w.engine with
  | .hub _ => w
  | .controller old =>
    let new := old.step a
    let w := { w with engine := .controller new }
    let runs := List.range' old.runs.length (new.runs.length - old.runs.length)
    let w := runs.foldl (fun w id => w.spawn [.drive id]) w
    let calls := (new.calls.drop old.calls.length).zipIdx old.calls.length
    let w := (calls.filterMap fun (call, id) => callTask? call id).foldl spawn w
    w.welcomeWorkers old.hub.workers.length

/-- The effect of an action on a hub without a controller. -/
def actOnHub (w : World) (a : HubAction) : World :=
  match w.engine with
  | .controller _ => w
  | .hub old => { w with engine := .hub (old.step a) }.welcomeWorkers old.workers.length

/-- The effect of an action on the listeners, whether or not there is a controller. -/
def actOnListeners (w : World) (x : ListenerAction) : World :=
  match w.engine with
  | .controller _ => w.act (.listeners x)
  | .hub _ => w.actOnHub (.listeners x)

end World

end Quiesce.Simulation
