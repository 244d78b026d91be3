import Quiesce.Controller.Progress
/-!
# Histories

Everything that can happen to a controller is an *action*. A history is any list of actions, in any
order; an action that is not possible when its time comes changes nothing. All that is known of a
controller is what holds after every history.

A request and each step of a run is one indivisible action. A run is cut into steps where it
waits, and more finely than that: `run_group` calls a group in one step and notes the end of
one call in each further one. Threads that meet inside one request are not told apart.
-/

namespace Quiesce

/-- A request of a caller, a step of a run, the end of a call, or something about the listeners.
Each is carried out as a whole before the next. -/
inductive Action
  | suspend (context : SuspendContext)
  | resume (context : ResumeContext)
  | reset
  /-- Someone who holds on to the attempt of this generation cancels it. -/
  | cancel (generation : Nat)
  /-- A registration under a raw level. -/
  | register (a : Activity) (level : Nat)
  | unregister (a : Activity)
  | turn (run : Nat)
  | collect (run call : Nat)
  | finish (call : Nat) (e : Ending)
  | listeners (x : ListenerAction)
deriving DecidableEq, Repr

namespace Controller

def step (c : Controller) : Action → Controller
  | .suspend context => (c.suspend context).1
  | .resume context => (c.resume context).1
  | .reset => c.reset
  | .cancel generation => c.cancelAttempt generation
  | .register a level => (c.registerAt a level).1
  | .unregister a => c.unregister a
  | .turn run => (c.turn? run).getD c
  | .collect run call => (c.collect? run call).getD c
  | .finish call e => c.finish call e
  | .listeners x => { c with hub := c.hub.stepListeners x }

def after (c : Controller) (history : List Action) : Controller :=
  history.foldl step c

/-- Something that a run can do on its own now: its next move, or else to collect the end of a call,
oldest call first. -/
def nextAction? (c : Controller) (run : Nat) : Option Action :=
  if (c.turn? run).isSome then some (.turn run)
  else
    let pending := ((c.activeRun? run).bind fun (_, p) => p.barrier?).elim [] Barrier.pending
    (pending.find? fun call => (c.collect? run call).isSome).map (.collect run)

end Controller

end Quiesce
