import Quiesce.Event
/-!
# Listeners and their workers

Each membership of a listener has a worker of its own: a bounded queue, and the listener's handling
of one event at a time. A worker outlives the membership until its queue is drained. A listener is
a `Subscribe`, and a worker is what `spawn_channel` makes of it.
-/

namespace Quiesce

/-- A listener: who it is, the name it goes by, and the queue length it prefers. -/
structure Listener where
  key : String
  name : String
  capacity : Nat := 1024
deriving DecidableEq, Repr

inductive WorkerStatus
  /-- Waiting for an event. -/
  | idle
  /-- Inside the listener's handling of an event. -/
  | handling (e : Event)
  /-- Broken by a panic outside the guarded handling; its queue is lost. -/
  | dead
  /-- Finished: its listener was removed and its queue is empty. -/
  | exited
deriving DecidableEq, Repr

/-- One membership of a listener. -/
structure Worker where
  listener : Listener
  /-- The length of the queue, at least one. -/
  capacity : Nat
  /-- The listener has not been removed since. -/
  attached : Bool := true
  /-- Accepted events that are not yet handled, oldest first. -/
  queue : List Event := []
  status : WorkerStatus := .idle
deriving DecidableEq, Repr

namespace Worker

/-- The worker of a new member. A forced queue length wins over the listener's own. -/
def create (l : Listener) (queueOverride? : Option Nat) : Worker :=
  { listener := l, capacity := max (queueOverride?.getD l.capacity) 1 }

/-- The worker takes nothing more from its queue, ever. -/
def isTerminated (w : Worker) : Bool :=
  match w.status with
  | .dead | .exited => true
  | .idle | .handling _ => false

/-- Why the worker cannot accept an event now, if it cannot. -/
def refusal? (w : Worker) : Option DropReason :=
  if w.isTerminated then some .closed
  else if w.capacity ≤ w.queue.length then some .full
  else none

/-- Queues an event for a member; one that cannot be accepted is dropped. -/
def offer (w : Worker) (e : Event) : Worker :=
  if w.attached && w.refusal?.isNone then { w with queue := w.queue ++ [e] } else w

/-- The notice that a member dropped an event, if it would. -/
def dropNotice? (w : Worker) : Option Notice :=
  if w.attached then w.refusal?.map fun reason => .overflow w.listener.name reason.label else none

theorem kind_of_dropNotice? {w : Worker} {n : Notice} (h : w.dropNotice? = some n) :
    n.kind = .subscriberOverflow := by
  unfold dropNotice? at h
  split at h
  · obtain ⟨reason, -, rfl⟩ := Option.map_eq_some_iff.1 h
    rfl
  · cases h

def detach (w : Worker) : Worker := { w with attached := false }

end Worker

end Quiesce
