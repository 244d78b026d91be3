import Quiesce.Controller.Action
/-!
# Scenarios

A scenario is a controller with scripted activities and listeners, and a list of steps. A script
says what an activity does during a call, or a listener over an event: wait, look at its token,
make a request of its own, and how it ends.

An activity is made of hooks (`ActivityFn`) or is a type of its own; in both a panic comes when the
call is waited for. Scripts of futures built by hand are left out.
-/

namespace Quiesce.Simulation

/-! ## What a step can ask -/

/-- How a registration states its priority. -/
inductive RegisterVia
  /-- A raw level, checked on registration. -/
  | level (n : Nat)
  /-- A priority made from a level beforehand. -/
  | priority (n : Nat)
  /-- No preference. -/
  | standard

/-- The raw level that a registration comes down to. -/
def RegisterVia.rawLevel : RegisterVia → Nat
  | level n | priority n => n
  | standard => Priority.standard.level

/-- A request to the world. Activities, listeners, gates and receivers go by their names. -/
inductive Command
  | openGates (gates : List String)
  | closeGates (gates : List String)
  /-- Lets the world come to rest, which every step does at its end anyway. -/
  | settle
  | subscribe (receiver : String)
  | drain (receiver : String) (limit? : Option Nat)
  | unsubscribe (receiver : String)
  | addListener (listener : String)
  | removeListener (listener : String)
  | hasListener (listener : String)
  | listenerCount
  | closeListeners
  /-- Distributes a notice to the listeners alone, several times over. -/
  | distribute (notice : Notice) (times : Nat)
  /-- Publishes a notice on the bus alone, several times over. -/
  | publish (notice : Notice) (times : Nat)
  | suspend (context : SuspendContext)
  | resume (context : ResumeContext)
  /-- A completion that is successful from the start. -/
  | ready
  | register (activity : String) (via : RegisterVia)
  | unregister (activity : String)
  | priorityOf (activity : String)
  | activityCount
  | state
  | config
  | reset
  /-- Keeps the current attempt under the step's tag. -/
  | active
  /-- Looks at a kept attempt. -/
  | handle (tag : String)
  /-- Cancels a kept attempt, or the current one. -/
  | cancel (tag? : Option String)
  /-- Looks at a kept completion. -/
  | peek (tag : String) (inspect : Bool)
  /-- Waits for a kept completion or attempt, at most so long. -/
  | await (tag : String) (limit? : Option Duration)
  /-- Calls an activity directly, with a token of its own. -/
  | call (activity : String) (request : Request) (cancelled : Bool)
  /-- A request that makes no sense. -/
  | invalid

/-- A command, and the tag its later result is filed under. -/
structure Instruction where
  command : Command
  tag? : Option String := none

/-- One step of a scenario. -/
inductive Step
  | single (i : Instruction)
  /-- Several instructions without rest in between. -/
  | batch (instructions : List Instruction)
  /-- Moves the clock by a number of milliseconds. -/
  | advance (milliseconds : Nat)

/-! ## Scripts -/

inductive ScriptAction
  /-- Waits for a gate; a cancellable wait ends the script when the token is cancelled. -/
  | gate (name : String) (cancellable : Bool)
  | sleep (span : Duration)
  /-- Waits until the token is cancelled. -/
  | waitCancel
  /-- Notes whether the token is cancelled. -/
  | check
  /-- Ends the script early. -/
  | finish (e : Ending)
  /-- As the first action of an activity: panics at once. Of a hook nothing is noted then. The panic
  is one at work all the same (`Ending.panicked`), for it comes when the call is waited for. -/
  | panicAtOnce (p : PanicPayload)
  /-- As the first action of a listener: panics outside the worker's guard. -/
  | die
  | call (i : Instruction)

abbrev Script := List ScriptAction

/-- The script for the `n`-th occasion: the last one is played over and over. -/
def scriptAt (scripts : List Script) (n : Nat) : Script :=
  match scripts[n]? with
  | some s => s
  | none => scripts.getLast?.getD []

inductive ActivityKind
  /-- Of hooks: a phase without scripts has no hook, succeeds, and leaves no trace. -/
  | hooks
  /-- As a type of its own: it is always asked to suspend and to resume, and never to prepare. -/
  | own
deriving DecidableEq, Repr

structure ActivityScript where
  name : String
  kind : ActivityKind := .hooks
  prepare? : Option (List Script) := none
  suspend? : Option (List Script) := none
  resume? : Option (List Script) := none

/-- The scripts of a phase; none if the phase passes without a trace. -/
def ActivityScript.scripts? (a : ActivityScript) : Phase → Option (List Script)
  | .prepare => match a.kind with
    | .hooks => a.prepare?
    | .own => none
  | .suspend => match a.kind with
    | .hooks => a.suspend?
    | .own => some (a.suspend?.getD [])
  | .resume => match a.kind with
    | .hooks => a.resume?
    | .own => some (a.resume?.getD [])

inductive ListenerKind
  /-- Plays a script over each event; `countOnly` leaves the events themselves out of the answer. -/
  | scripted (scripts : List Script) (countOnly : Bool)
  /-- Writes each event to the log. -/
  | logWriter

structure ListenerScript where
  name : String
  capacity : Nat := 1024
  kind : ListenerKind

def logWriterName : String := "LogWriter"

/-! ## Scenarios -/

inductive Subject
  /-- A whole controller. -/
  | controller
  /-- A set of listeners on a bus, without a controller. -/
  | listeners
deriving DecidableEq, Repr

/-- The cast and the steps. -/
structure Scenario where
  subject : Subject
  config : Config
  activities : List (String × ActivityScript)
  listeners : List (String × ListenerScript)
  initialListeners : List String
  steps : List Step

end Quiesce.Simulation
