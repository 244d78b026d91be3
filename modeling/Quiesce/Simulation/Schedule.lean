import Quiesce.Simulation.Command
/-!
# Tasks at work

Tasks take turns. At its turn a task goes on until it has to wait; the world is *at rest* when a
whole round of turns brings nothing about. Only then may the clock move, and it moves to the next
instant at which some task has to go on.
-/

namespace Quiesce.Simulation

/-- What one piece of work hands to the next. -/
inductive Result
  /-- The end of a call or of a script. -/
  | ending (e : Ending)
  /-- The answer to a command. -/
  | reply (r : Reply)

namespace World

/-! ## Handing results on -/

/-- The answer to a late registration. -/
def lateReply (w : World) (call : Nat) : Reply :=
  match w.controller?.bind fun c => c.registered? (.late call) with
  | some r => .registered r
  | none => .badStep

def noteOn (w : World) (p : Play) (detail : LogDetail) : World :=
  w.note ⟨p.actor, p.phase?, p.priority?, detail⟩

/-- Hands a result to the frames that wait for it. -/
def handOn (w : World) (r : Result) (waiting : Task) : World × Task :=
  match r, waiting with
  | .ending e, .member call :: rest => (w.act (.finish call e), rest)
  | .ending e, .late call :: rest =>
    let w := w.act (.finish call e)
    (w, .answer (w.lateReply call) :: rest)
  | .ending e, .direct :: rest => (w, .answer (.called e.error?) :: rest)
  | .ending e, .worker id :: rest =>
    match e with
    | .panicked p | .panickedEarly p => (w.actOnListeners (.panicked id p), .worker id :: rest)
    | _ => (w.actOnListeners (.returned id), .worker id :: rest)
  | .reply r, .report tag :: rest => (w.file tag r, rest)
  | .reply r, .play p :: rest => (w.noteOn p (.call r), .play p :: rest)
  | _, rest => (w, rest)

/-! ## Scripts -/

/-- How often something happened before; this time is counted. -/
def occasion (w : World) (actor : String) (phase? : Option Phase) : Nat × World :=
  let n := (w.occasions.lookup (actor, phase?)).getD 0
  (n, { w with occasions := assign (actor, phase?) (n + 1) w.occasions })

/-- Makes a call to an activity: its script begins, unless the phase passes without a trace. A hook
that panics at once leaves no trace either; an activity of its own has begun by then. -/
def makeCall (w : World) (key : String) (request : Request) (watch : Watch) (waiting : Task) :
    World × Task :=
  match do
    let a ← w.activities.lookup key
    return (a.kind, ← a.scripts? request.phase) with
  | none => w.handOn (.ending .returned) waiting
  | some (kind, scripts) =>
    let (n, w) := w.occasion key (some request.phase)
    match kind, scriptAt scripts n with
    | .hooks, .panicAtOnce p :: _ => w.handOn (.ending (.panicked p)) waiting
    | _, script =>
      let priority? := do (← w.controller?).registry.priorityOf? (← w.activity? key)
      let play : Play :=
        { actor := key, phase? := some request.phase, priority?, watch, rest := script }
      (w.noteOn play (.start (requestFlags request)), .play play :: waiting)

def endPlay (w : World) (p : Play) (e : Ending) (waiting : Task) : World × Task :=
  let w := if p.phase?.isSome then w.noteOn p (.finish (endingResult e)) else w
  w.handOn (.ending e) waiting

/-- The gate lets the script through: it is open, or was opened since the script came to it. -/
def passes (w : World) (name : String) (wait : Wait) : Bool :=
  let g := w.gate name
  g.isOpen || match wait with
    | .gate openings => openings < g.openings
    | _ => false

/-- The next thing a script does; nothing if it has to wait. -/
def stepPlay (w : World) (p : Play) (waiting : Task) : Option (World × Task) :=
  match p.rest with
  | [] => some (w.endPlay p .returned waiting)
  | action :: rest =>
    let goOn : Task := .play { p with rest, wait := .fresh } :: waiting
    match action with
    | .gate name cancellable =>
      if cancellable && w.isCancelled p.watch then some (w.endPlay p (.failed .canceled) waiting)
      else if w.passes name p.wait then some (w, goOn)
      else if p.wait = .fresh then
        some (w, .play { p with wait := .gate (w.gate name).openings } :: waiting)
      else none
    | .sleep span =>
      match p.wait with
      | .until instant => if instant ≤ w.now then some (w, goOn) else none
      | _ => some (w, .play { p with wait := .until (w.now + span.nanoseconds) } :: waiting)
    | .waitCancel => if w.isCancelled p.watch then some (w, goOn) else none
    | .check => some (w.noteOn p (.check (w.isCancelled p.watch)), goOn)
    | .finish e => some (w.endPlay p e waiting)
    | .panicAtOnce payload => some (w.endPlay p (.panicked payload) waiting)
    | .die => some (w, goOn)
    | .call i =>
      match w.perform (i.tag?.getD "call") i.command with
      | (w, .reply r) => some (w.handOn (.reply r) goOn)
      | (w, .wait frames) => some (w, frames ++ goOn)

/-! ## Listeners -/

/-- What a worker does next: begin with an event, or finish; nothing if it has to wait. -/
def stepWorker (w : World) (id : Nat) (waiting : Task) : Option (World × Task) := do
  let worker ← w.hub.workers[id]?
  match worker.queue with
  | [] => if worker.attached then none else some (w.actOnListeners (.exit id), waiting)
  | _ :: _ =>
    let w := w.actOnListeners (.take id)
    let key := worker.listener.key
    match (w.listeners.lookup key).map ListenerScript.kind with
    | some (.scripted scripts _) =>
      let (n, w) := w.occasion key none
      match scriptAt scripts n with
      | .die :: _ => some (w.actOnListeners (.die id), waiting)
      | script =>
        let play : Play :=
          { actor := key, phase? := none, priority? := none, watch := .fixed false, rest := script }
        some (w, .play play :: .worker id :: waiting)
    | _ => some (w.actOnListeners (.returned id), .worker id :: waiting)

/-! ## Runs and completions -/

/-- A run makes its next step, if it can make one. -/
def stepRun? (w : World) (run : Nat) : Option World := do
  let action ← (← w.controller?).nextAction? run
  return w.act action

/-- Someone waits for an outcome. Whoever waits for a run moves it on as well. -/
def stepAwait (w : World) (completion : Completion) (waiter : Waiter) (waiting : Task) :
    Option (World × Task) :=
  let moved? := match completion with
    | .ready => none
    | .run id => w.stepRun? id
  match moved? with
  | some w => some (w, .await completion waiter :: waiting)
  | none => do
    let outcome ← waiter.poll w.now (w.controller?.bind fun c => c.outcome? completion)
    return w.handOn (.reply (.outcome outcome)) waiting

/-- The task of a run moves it on and ends with it. -/
def stepDrive (w : World) (run : Nat) (waiting : Task) : Option (World × Task) :=
  match w.stepRun? run with
  | some w => some (w, .drive run :: waiting)
  | none => do
    let _ ← (← w.controller?).outcome? (.run run)
    return (w, waiting)

/-! ## Turns -/

/-- The next thing a task does; nothing if it has to wait. -/
def stepTask (w : World) : Task → Option (World × Task)
  | [] => none
  | .make key request watch :: rest => some (w.makeCall key request watch rest)
  | .play p :: rest => w.stepPlay p rest
  | .answer r :: rest => some (w.handOn (.reply r) rest)
  | .await completion waiter :: rest => w.stepAwait completion waiter rest
  | .closing workers :: rest =>
    if w.hub.terminated workers then some (w.handOn (.reply .closed) rest) else none
  | .drive run :: rest => w.stepDrive run rest
  | .worker id :: rest => w.stepWorker id rest
  | .member _ :: rest | .late _ :: rest | .direct :: rest | .report _ :: rest => some (w, rest)

/-- The turn of a task: it goes on until it has to wait. Tells whether anything happened. -/
def turn : Nat → World → Task → Bool → World × Task × Bool
  | 0, w, t, moved => (w, t, moved)
  | limit + 1, w, t, moved =>
    match w.stepTask t with
    | none => (w, t, moved)
    | some (w, t) => turn limit w t true

/-- The bound on the steps of one turn and on the rounds of one rest. It is reached only by a world
that never comes to rest, such as one whose listener answers every event by causing another. -/
def patience : Nat := 1000000

/-- Starts a task: it takes its first turn at once, and joins the others if there is more to do. -/
def start (w : World) (t : Task) : World :=
  let (w, t, _) := turn patience w t false
  if t.isEmpty then w else w.spawn t

/-- A round of turns. Tells whether anything happened. -/
def round (w : World) : World × Bool :=
  w.tasks.foldl (fun (w, moved) t =>
      let (w, t, moved) := turn patience w t moved
      (if t.isEmpty then w else w.spawn t, moved))
    ({ w with tasks := [] }, false)

/-- Rounds until one brings nothing about. -/
def rounds : Nat → World → World
  | 0, w => w
  | limit + 1, w =>
    let (w, moved) := w.round
    if moved then rounds limit w else w

def settle (w : World) : World := rounds patience w

/-! ## The clock -/

/-- The next instant at which a task has to go on. -/
def nextDeadline? (w : World) : Option Nat :=
  (w.tasks.filterMap Task.deadline?).min?

/-- Settles, and moves the clock on to the target, with a rest at each instant on the way at which
some task has to go on. -/
def advanceTo (target : Nat) : Nat → World → World
  | 0, w => { w with now := target }
  | limit + 1, w =>
    let w := w.settle
    match w.nextDeadline? with
    | none => { w with now := target }
    | some next =>
      if next ≤ target then advanceTo target limit { w with now := next }
      else { w with now := target }

/-- Moves the clock on. At rest every instant to stop at lies ahead, so there are no more of them
than milliseconds. -/
def advance (w : World) (milliseconds : Nat) : World :=
  advanceTo (w.now + (Duration.ofMilliseconds milliseconds).nanoseconds) (milliseconds + 1) w

end World

end Quiesce.Simulation
