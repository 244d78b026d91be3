import Quiesce.Config
import Quiesce.Hub
import Quiesce.Registry
import Quiesce.Run
/-!
# The controller

The controller owns the state, the registered activities, the current suspend attempt and the event
hub. This module holds what a caller can ask of it; none of it waits. The runs that carry a suspend
or a resume out move on by steps of their own (`Quiesce.Controller.Progress`).

| here | there |
| --- | --- |
| `Controller` | `SuspendController`, with all runs and calls that there ever were |
| `suspend`, `resume`, `reset` | the same |
| `cancelAttempt` | `cancel` of an `ActiveSuspend` |
| `register`, `registerAt` | `register_activity`, `register_activity_at`, up to where they wait |
| `registered?` | what they return |
| `unregister` | `unregister_activity` |

Left out are the trace records of the controller itself, and what two threads inside one request
could see of each other: a request is one step.

- At most one suspend attempt is in flight; further requests share it.
- A failed phase is not rolled back: the state stays where the failure left it.
- A run writes the state only while no newer attempt and no reset has replaced its generation.
- An activity that registers while the server is not running is suspended on the spot.
-/

namespace Quiesce

/-- A controller with everything it has ever started. -/
structure Controller where
  config : Config
  state : State
  registry : Registry
  attempt : Attempt
  /-- Every run ever started, oldest first. -/
  runs : List Run
  /-- Every call ever made to an activity on the controller's behalf, oldest first. -/
  calls : List Call
  /-- The tokens that were cancelled themselves. -/
  cancelled : List Token
  hub : Hub
deriving DecidableEq, Repr

/-- What a registration comes to. -/
inductive Registration
  /-- The level was out of range: nothing was registered. -/
  | refused (e : RegisterError)
  /-- Nothing more to do. -/
  | done
  /-- The activity is being suspended by this call. -/
  | late (call : Nat)
deriving DecidableEq, Repr

inductive RegisterResult
  | ok
  | error (e : RegisterError)
  /-- The panic that was raised while the call was being made, passed on. -/
  | panicked (p : PanicPayload)
deriving DecidableEq, Repr

/-- What a registration's call amounts to. A panic at work is a failure of the activity; a panic
while the call is being made is not caught and reaches the caller. -/
def Ending.registerResult (activity : String) : Ending → RegisterResult
  | .returned => .ok
  | .failed e => .error (.lateSuspend activity e)
  | .panicked p => .error (.lateSuspend activity (.panicked p.info))
  | .panickedEarly p => .panicked p

namespace Controller

/-- A new controller with its first listeners. -/
def create (config : Config) (listeners : List Listener) : Controller where
  config := config
  state := config.initialState
  registry := .empty
  attempt := .initial 0
  runs := []
  calls := []
  cancelled := []
  hub := .create config.effectiveBusCapacity config.queueOverride? listeners

/-! ## Parts -/

def emit (c : Controller) (n : Notice) : Controller :=
  { c with hub := c.hub.emit n }

def isCancelled (c : Controller) (t : Token) : Bool :=
  t.cancelledBy c.cancelled

def cancelToken (c : Controller) (t : Token) : Controller :=
  if t ∈ c.cancelled then c else { c with cancelled := t :: c.cancelled }

/-- The outcome behind a handle, if it is there. -/
def outcome? (c : Controller) : Completion → Option Outcome
  | .ready => some .ok
  | .run id => c.runs[id]?.bind Run.outcome?

section
variable (c : Controller) (n : Notice) (t : Token)

@[simp] theorem emit_state : (c.emit n).state = c.state := rfl
@[simp] theorem emit_registry : (c.emit n).registry = c.registry := rfl
@[simp] theorem emit_attempt : (c.emit n).attempt = c.attempt := rfl
@[simp] theorem emit_runs : (c.emit n).runs = c.runs := rfl
@[simp] theorem emit_calls : (c.emit n).calls = c.calls := rfl
@[simp] theorem emit_cancelled : (c.emit n).cancelled = c.cancelled := rfl

@[simp] theorem cancelToken_state : (c.cancelToken t).state = c.state := by
  unfold cancelToken; split <;> rfl

@[simp] theorem cancelToken_registry : (c.cancelToken t).registry = c.registry := by
  unfold cancelToken; split <;> rfl

@[simp] theorem cancelToken_attempt : (c.cancelToken t).attempt = c.attempt := by
  unfold cancelToken; split <;> rfl

@[simp] theorem cancelToken_runs : (c.cancelToken t).runs = c.runs := by
  unfold cancelToken; split <;> rfl

@[simp] theorem cancelToken_calls : (c.cancelToken t).calls = c.calls := by
  unfold cancelToken; split <;> rfl

@[simp] theorem cancelToken_hub : (c.cancelToken t).hub = c.hub := by
  unfold cancelToken; split <;> rfl

@[simp] theorem mem_cancelled_cancelToken {u : Token} :
    u ∈ (c.cancelToken t).cancelled ↔ u = t ∨ u ∈ c.cancelled := by
  unfold cancelToken
  split
  · rename_i h
    exact ⟨Or.inr, fun hu => hu.elim (fun e => e ▸ h) id⟩
  · exact List.mem_cons

end

/-- An attempt's token derives from no other: it is cancelled only itself. -/
theorem isCancelled_attempt {c : Controller} {g : Nat} :
    c.isCancelled (.attempt g) = true ↔ Token.attempt g ∈ c.cancelled := by
  simp [isCancelled, Token.cancelledBy]

theorem outcome?_run {c : Controller} {id : Nat} {r : Run} (h : c.runs[id]? = some r) :
    c.outcome? (.run id) = r.outcome? := by
  simp [outcome?, h]

/-! ## Suspending and resuming -/

/-- Starts a suspend attempt if the server is running; otherwise shares the current attempt. -/
def suspend (c : Controller) (context : SuspendContext) : Controller × Completion :=
  if c.state = .running then
    let generation := c.attempt.generation + 1
    let completion := Completion.run c.runs.length
    let c := { c with
      state := .preSuspend
      attempt := ⟨generation, completion, context⟩
      runs := c.runs ++ [Run.start (.suspend context) generation] }
    (c.emit .suspendStarted, completion)
  else (c, c.attempt.completion)

/-- Cancels the current attempt and starts a resume run; a running server has nothing to resume. -/
def resume (c : Controller) (context : ResumeContext) : Controller × Completion :=
  if c.state = .running then (c, .ready)
  else
    let completion := Completion.run c.runs.length
    let c := c.cancelToken (.attempt c.attempt.generation)
    let c := { c with runs := c.runs ++ [Run.start (.resume context) c.attempt.generation] }
    (c.emit .suspendCancelled, completion)

/-- Forces the suspended state. The current attempt is cancelled and replaced by a finished one. -/
def reset (c : Controller) : Controller :=
  let c := c.cancelToken (.attempt c.attempt.generation)
  { c with state := .suspended, attempt := .initial (c.attempt.generation + 1) }

/-- Advises the attempt of a generation to give up. -/
def cancelAttempt (c : Controller) (generation : Nat) : Controller :=
  if generation ≤ c.attempt.generation then c.cancelToken (.attempt generation) else c

/-! ## Registration -/

/-- Registers an activity. Unless the server is running, the activity is called to suspend, with the
context of the latest attempt. An activity that is registered already is left as it is. -/
def register (c : Controller) (a : Activity) (p : Priority) : Controller × Registration :=
  match c.registry.priorityOf? a with
  | some _ => (c, .done)
  | none =>
    let c := { c with registry := c.registry.insert a p }.emit (.registered a p)
    if c.state = .running then (c, .done)
    else
      let id := c.calls.length
      let request := Request.suspend c.attempt.context
      let call : Call := { activity := a, request, token := .late id, origin := .late p }
      ({ c with calls := c.calls ++ [call] }, .late id)

/-- Registers an activity under a raw level, which is checked first. -/
def registerAt (c : Controller) (a : Activity) (level : Nat) : Controller × Registration :=
  match Priority.ofLevel level with
  | .error e => (c, .refused e)
  | .ok p => c.register a p

def registered? (c : Controller) : Registration → Option RegisterResult
  | .refused e => some (.error e)
  | .done => some .ok
  | .late id => do
    let call ← c.calls[id]?
    let ending ← call.ending?
    return ending.registerResult call.activity.name

theorem registered?_late {c : Controller} {id : Nat} {k : Call} (made : c.calls[id]? = some k) :
    c.registered? (.late id) =
      k.ending?.map fun ending => ending.registerResult k.activity.name := by
  cases ended : k.ending? <;> simp [registered?, made, ended]

/-- Forgets an activity. Calls already made go on. -/
def unregister (c : Controller) (a : Activity) : Controller :=
  match c.registry.priorityOf? a with
  | none => c
  | some p => { c with registry := c.registry.erase a }.emit (.unregistered a p)

end Controller

end Quiesce
