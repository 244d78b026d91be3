import Quiesce.Simulation.Schedule
/-!
# Transcripts

A scenario is played step by step: the step's instructions are carried out, the world comes to rest,
and everything that came about is reported.
-/

namespace Quiesce.Simulation

namespace Scenario

/-- The world before the first step. -/
def opening (s : Scenario) : World :=
  let cast : World :=
    { engine := .hub (.create 1 none []), activities := s.activities, listeners := s.listeners }
  let first := s.initialListeners.filterMap cast.listener?
  let engine := match s.subject with
    | .controller => Engine.controller (.create s.config first)
    | .listeners =>
      Engine.hub (.create s.config.effectiveBusCapacity s.config.queueOverride? first)
  { cast with engine }.welcomeWorkers 0

end Scenario

namespace World

/-! ## Steps -/

def carryOut (w : World) (defaultTag : String) (i : Instruction) : World × Reply :=
  let tag := i.tag?.getD defaultTag
  match w.perform tag i.command with
  | (w, .reply r) => (w, r)
  | (w, .wait frames) => (w.start (frames ++ [.report tag]), .none)

/-- Carries out the instructions of a batch. -/
def carryOutAll (w : World) (stepIndex : Nat) (instructions : List Instruction) :
    World × List Reply :=
  instructions.zipIdx.foldl (fun (w, replies) (i, j) =>
      let (w, r) := w.carryOut (toString stepIndex ++ "." ++ toString j) i
      (w, replies ++ [r]))
    (w, [])

def takeStep (w : World) (index : Nat) : Step → World × StepReply
  | .single i =>
    let (w, r) := w.carryOut (toString index) i
    (w.settle, .one r)
  | .batch instructions =>
    let (w, rs) := w.carryOutAll index instructions
    (w.settle, .many rs)
  | .advance ms => ((w.advance ms).settle, .one .none)

/-! ## Reports -/

/-- The name of the listener that a delivery went to. -/
def recipient? (w : World) (d : Delivery) : Option String :=
  w.hub.workers[d.worker]?.map fun worker => worker.listener.key

/-- What the listeners heard of a list of deliveries, listener by listener. -/
def heard (w : World) (deliveries : List Delivery) : List (String × Heard) :=
  w.listeners.filterMap fun (key, l) =>
    let own := deliveries.filter fun d => w.recipient? d = some key
    match l.kind, own.map Delivery.event with
    | .logWriter, _ | _, [] => none
    | .scripted _ true, es => some (key, .count es.length)
    | .scripted _ false, es => some (key, .events es)

/-- What the log writers wrote of a list of deliveries. -/
def records (w : World) (deliveries : List Delivery) : List LogRecord :=
  deliveries.filterMap fun d => do
    let l ← w.listeners.lookup (← w.recipient? d)
    match l.kind with
    | .logWriter => some (.ofEvent d.event)
    | .scripted .. => none

/-- The report on a step that began when so many deliveries had been made. -/
def report (w : World) (reply : StepReply) (deliveriesBefore : Nat) : StepReport where
  reply := reply
  state? := w.controller?.map Controller.state
  log := canonicalLog w.log.toList
  done := w.done
  heard := w.heard (w.hub.deliveries.toList.drop deliveriesBefore)
  records := w.records (w.hub.deliveries.toList.drop deliveriesBefore)

def play (w : World) (index : Nat) : List Step → List StepReport
  | [] => []
  | step :: rest =>
    let before := w.hub.deliveries.size
    let (w, reply) := { w with log := #[], done := [] }.takeStep index step
    w.report reply before :: w.play (index + 1) rest

end World

/-- Plays a scenario: one report for each step. -/
def Scenario.transcript (s : Scenario) : List StepReport :=
  s.opening.play 0 s.steps

end Quiesce.Simulation
