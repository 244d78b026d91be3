import Quiesce.Bus
import Quiesce.Listener
/-!
# The event hub

The hub numbers every notice, distributes it to the listeners and publishes it on the bus. Emitting
never waits: an event that a listener cannot queue is dropped for that listener alone, and the bus
is told of the drop before it is told of the event.

| here | there |
| --- | --- |
| `add`, `remove`, `contains`, `size` | the same of `SubscriberSet` |
| `distribute` | `emit` of `SubscriberSet` |
| `emit` | `emit` of the controller |
| `close`, `members`, `terminated` | `close`: what it removes, waits for, and when it ends |
| `take`, `returned`, `panicked`, `die`, `exit` | the loop of a worker, in `spawn_channel` |
-/

namespace Quiesce

/-- A listener begins to handle an event. -/
structure Delivery where
  worker : Nat
  event : Event
deriving DecidableEq, Repr

/-- The listeners, the bus, and the history of both. -/
structure Hub where
  /-- The queue length forced on every listener, if any. -/
  queueOverride? : Option Nat
  /-- Every event ever created; the number of an event is its place here. -/
  journal : Array Event
  bus : Bus
  /-- One worker for each membership there ever was, oldest first. -/
  workers : List Worker
  /-- Every event that a listener began to handle, in the order of beginning. -/
  deliveries : Array Delivery
deriving DecidableEq, Repr

namespace Hub

/-! ## Creating and spreading events -/

/-- The event that a notice becomes when it is created now. -/
def next (h : Hub) (n : Notice) : Event :=
  ⟨n, h.journal.size⟩

/-- Creates an event and publishes it on the bus alone. -/
def publish (h : Hub) (n : Notice) : Hub :=
  let e := h.next n
  { h with journal := h.journal.push e, bus := h.bus.publish e }

/-- Creates an event and offers it to every member. Each drop is published on the bus at once; the
event itself is not. -/
def distribute (h : Hub) (n : Notice) : Hub :=
  let e := h.next n
  let drops := h.workers.filterMap Worker.dropNotice?
  let offered := { h with
    journal := h.journal.push e
    workers := h.workers.map fun w => w.offer e }
  drops.foldl publish offered

/-- Creates an event, distributes it to the members and then publishes it on the bus, all in one
step. Every emission creates a new event, with the next number of this hub. (Where several
controllers share one counter of numbers, each of them sees a part of the numbers.) -/
def emit (h : Hub) (n : Notice) : Hub :=
  let distributed := h.distribute n
  { distributed with bus := distributed.bus.publish (h.next n) }

theorem journal_publish (h : Hub) (n : Notice) : (h.publish n).journal = h.journal.push (h.next n) :=
  rfl

/-- What is published alone stands in the journal and on the bus in the same order. -/
theorem foldl_publish_grows (ns : List Notice) (h : Hub) :
    ∃ es, (ns.foldl publish h).journal.toList = h.journal.toList ++ es ∧
      (ns.foldl publish h).bus.stream.toList = h.bus.stream.toList ++ es ∧
      es.map Event.toNotice = ns := by
  induction ns generalizing h with
  | nil => exact ⟨[], by simp⟩
  | cons n ns ih =>
    obtain ⟨es, journal, stream, notices⟩ := ih (h.publish n)
    refine ⟨h.next n :: es, journal.trans ?_, stream.trans ?_, by simp [notices, next]⟩
    · simp [publish]
    · simp [publish, Bus.publish]

/-- An emit creates its event, and after it one for each drop. -/
theorem journal_emit (h : Hub) (n : Notice) :
    ∃ drops, (h.emit n).journal.toList = h.journal.toList ++ h.next n :: drops ∧
      ∀ e ∈ drops, e.kind = .subscriberOverflow := by
  obtain ⟨drops, journal, -, notices⟩ := foldl_publish_grows (h.workers.filterMap Worker.dropNotice?)
    { h with
      journal := h.journal.push (h.next n)
      workers := h.workers.map fun w => w.offer (h.next n) }
  refine ⟨drops, by simp [emit, distribute, journal], fun e he => ?_⟩
  have dropped : e.toNotice ∈ h.workers.filterMap Worker.dropNotice? :=
    notices ▸ List.mem_map_of_mem he
  obtain ⟨w, -, hw⟩ := List.mem_filterMap.1 dropped
  exact Worker.kind_of_dropNotice? hw

/-! ## Membership -/

def contains (h : Hub) (l : Listener) : Bool :=
  h.workers.any fun w => w.attached && w.listener = l

def size (h : Hub) : Nat :=
  (h.workers.filter Worker.attached).length

/-- Admits a listener; a member is not admitted twice. -/
def add (h : Hub) (l : Listener) : Hub :=
  if h.contains l then h
  else { h with workers := h.workers ++ [Worker.create l h.queueOverride?] }

/-- Ends the membership of a listener. What is queued for it is still handled. -/
def remove (h : Hub) (l : Listener) : Hub :=
  { h with workers := h.workers.map fun w => if w.listener = l then w.detach else w }

def close (h : Hub) : Hub :=
  { h with workers := h.workers.map Worker.detach }

/-- The workers of the present members: those that a close waits for. -/
def members (h : Hub) : List Nat :=
  (List.range h.workers.length).filter fun id => (h.workers[id]?).any Worker.attached

/-- All the given workers have ended. -/
def terminated (h : Hub) (ids : List Nat) : Bool :=
  ids.all fun id => (h.workers[id]?).all Worker.isTerminated

/-- A hub with its first members, each admitted once. -/
def create (busCapacity : Nat) (queueOverride? : Option Nat) (listeners : List Listener) : Hub :=
  let empty : Hub :=
    { queueOverride? := queueOverride?, journal := #[], bus := .create busCapacity, workers := [],
      deliveries := #[] }
  listeners.foldl add empty

/-! ## The work of a worker -/

def setWorker (h : Hub) (id : Nat) (w : Worker) : Hub :=
  { h with workers := h.workers.set id w }

/-- An idle worker begins with the oldest event of its queue. -/
def take (h : Hub) (id : Nat) : Hub :=
  match h.workers[id]? with
  | none => h
  | some w =>
    match w.status, w.queue with
    | .idle, e :: rest =>
      let h := h.setWorker id { w with queue := rest, status := .handling e }
      { h with deliveries := h.deliveries.push ⟨id, e⟩ }
    | _, _ => h

def returned (h : Hub) (id : Nat) : Hub :=
  match h.workers[id]? with
  | none => h
  | some w =>
    match w.status with
    | .handling _ => h.setWorker id { w with status := .idle }
    | _ => h

/-- The listener panicked over the event in hand: the bus is told, and the worker goes on. -/
def panicked (h : Hub) (id : Nat) (p : PanicPayload) : Hub :=
  match h.workers[id]? with
  | none => h
  | some w =>
    match w.status with
    | .handling _ =>
      (h.setWorker id { w with status := .idle }).publish (.panicked w.listener.name p.info)
    | _ => h

/-- The worker breaks over the event in hand, and its queue is lost. -/
def die (h : Hub) (id : Nat) : Hub :=
  match h.workers[id]? with
  | none => h
  | some w =>
    match w.status with
    | .handling _ => h.setWorker id { w with queue := [], status := .dead }
    | _ => h

/-- An idle worker without a member and without events finishes. -/
def exit (h : Hub) (id : Nat) : Hub :=
  match h.workers[id]? with
  | none => h
  | some w =>
    if w.attached = false ∧ w.queue = [] ∧ w.status = .idle then
      h.setWorker id { w with status := .exited }
    else h

end Hub

/-! ## Everything that can happen -/

/-- A change of membership, or a step of one worker. -/
inductive ListenerAction
  | add (l : Listener)
  | remove (l : Listener)
  | close
  | take (worker : Nat)
  | returned (worker : Nat)
  | panicked (worker : Nat) (p : PanicPayload)
  | die (worker : Nat)
  | exit (worker : Nat)
deriving DecidableEq, Repr

/-- An action on the listeners, or the creation of an event. -/
inductive HubAction
  | listeners (x : ListenerAction)
  | distribute (n : Notice)
  | publish (n : Notice)
  | emit (n : Notice)
deriving DecidableEq, Repr

namespace Hub

/-- The effect of an action on the listeners; one that is not possible now changes nothing. -/
def stepListeners (h : Hub) : ListenerAction → Hub
  | .add l => h.add l
  | .remove l => h.remove l
  | .close => h.close
  | .take id => h.take id
  | .returned id => h.returned id
  | .panicked id p => h.panicked id p
  | .die id => h.die id
  | .exit id => h.exit id

/-- A listener's doings create no event but that of a panic. -/
theorem journal_stepListeners (h : Hub) (x : ListenerAction) :
    (h.stepListeners x).journal = h.journal ∨
      ∃ name info, (h.stepListeners x).journal = h.journal.push (h.next (.panicked name info)) := by
  cases x with
  | panicked id p =>
    simp only [stepListeners, panicked]
    repeat' split
    all_goals first
      | exact .inl rfl
      | exact .inr ⟨_, _, rfl⟩
  | add | take | returned | die | exit =>
    refine .inl ?_
    simp only [stepListeners, add, take, returned, die, exit]
    repeat' split
    all_goals rfl
  | remove | close => exact .inl rfl

def step (h : Hub) : HubAction → Hub
  | .listeners x => h.stepListeners x
  | .distribute n => h.distribute n
  | .publish n => h.publish n
  | .emit n => h.emit n

def after (h : Hub) (history : List HubAction) : Hub :=
  history.foldl step h

end Hub

end Quiesce
