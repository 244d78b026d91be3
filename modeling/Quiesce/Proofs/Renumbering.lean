import Quiesce.Proofs.HubRecord
/-!
# New numbers

When some events are left out, those that are kept move up: `newNumber` counts the ones kept before,
so they stay in their order (`newNumber_lt`). No worker looks at the numbers of its events: with new
numbers it accepts, drops and does the same (`renumber_offer`, `dropNotice?_renumber`,
`act?_renumber`).
-/

namespace Quiesce

variable {kept : Nat → Bool}

/-! ## Events -/

/-- The number of an event when the events before it that are not kept do not count. -/
def newNumber (kept : Nat → Bool) (s : Nat) : Nat := (List.range s).countP kept

theorem newNumber_succ (kept : Nat → Bool) (s : Nat) :
    newNumber kept (s + 1) = newNumber kept s + if kept s then 1 else 0 := by
  rw [newNumber, List.range_succ, List.countP_append, List.countP_singleton, newNumber]

theorem newNumber_lt {s t : Nat} (remains : kept s = true) (lt : s < t) :
    newNumber kept s < newNumber kept t := by
  have counted := newNumber_succ kept s
  rw [if_pos remains] at counted
  have rest : newNumber kept (s + 1) ≤ newNumber kept t := (List.range_sublist.2 lt).countP_le
  omega

namespace Event

def renumber (kept : Nat → Bool) (e : Event) : Event := { e with seq := newNumber kept e.seq }

/-- The events of a list that are kept, with their new numbers. -/
def remaining (kept : Nat → Bool) (es : List Event) : List Event :=
  (es.filter fun e => kept e.seq).map (renumber kept)

/-- The event is about this listener, or about none but the server. -/
def About (e : Event) : Option Listener → Prop
  | none => e.kind.isSubscriberEvent = false
  | some l => e.kind.isSubscriberEvent = true ∧ e.activity = some l.name

variable {e : Event} {es : List Event}

theorem remaining_push_kept (remains : kept e.seq = true) (es : List Event) :
    remaining kept (es ++ [e]) = remaining kept es ++ [e.renumber kept] := by
  simp [remaining, remains]

theorem remaining_push_gone (lost : kept e.seq = false) (es : List Event) :
    remaining kept (es ++ [e]) = remaining kept es := by
  simp [remaining, lost]

/-- If all events of some kind are kept, then those that are kept are all of this kind. -/
theorem filter_remaining {q : Event → Bool} (blind : ∀ e, q (e.renumber kept) = q e)
    (spared : ∀ e ∈ es, q e = true → kept e.seq = true) :
    (remaining kept es).filter q = (es.filter q).map (renumber kept) := by
  rw [remaining, List.filter_map, List.filter_filter]
  refine congrArg _ (List.filter_congr fun e member => ?_)
  simp only [Function.comp_apply, blind]
  cases own : q e with
  | false => rfl
  | true => simp [spared e member own]

theorem length_remaining {n : Nat} (numbered : es.map Event.seq = List.range n) :
    (remaining kept es).length = newNumber kept n := by
  rw [remaining, List.length_map, ← List.countP_eq_length_filter, newNumber, ← numbered,
    List.countP_map]
  rfl

end Event

/-! ## Workers -/

/-- The same step, taken by the worker at this place. -/
def ListenerAction.takenAt (place : Nat) : ListenerAction → ListenerAction
  | take _ => take place
  | returned _ => returned place
  | panicked _ p => panicked place p
  | die _ => die place
  | exit _ => exit place
  | add l => add l
  | remove l => remove l
  | close => close

theorem ListenerAction.worker?_takenAt {id : Nat} (y : ListenerAction) (own : y.worker? = some id)
    (place : Nat) : (y.takenAt place).worker? = some place := by
  cases y <;> first
    | rfl
    | cases own

def WorkerStatus.renumber (kept : Nat → Bool) : WorkerStatus → WorkerStatus
  | idle => idle
  | handling e => handling (e.renumber kept)
  | dead => dead
  | exited => exited

namespace Worker

variable {w : Worker} {e : Event}

def renumber (kept : Nat → Bool) (w : Worker) : Worker :=
  { w with queue := w.queue.map (Event.renumber kept), status := w.status.renumber kept }

@[simp] theorem renumber_listener (w : Worker) : (w.renumber kept).listener = w.listener := rfl
@[simp] theorem renumber_attached (w : Worker) : (w.renumber kept).attached = w.attached := rfl

@[simp] theorem refusal?_renumber (w : Worker) : (w.renumber kept).refusal? = w.refusal? := by
  have terminated : (w.renumber kept).isTerminated = w.isTerminated := by
    cases w with
    | mk _ _ _ _ status => cases status <;> rfl
  rw [refusal?, refusal?, terminated]
  simp [renumber]

@[simp] theorem dropNotice?_renumber (w : Worker) :
    (w.renumber kept).dropNotice? = w.dropNotice? := by
  simp [dropNotice?]

theorem renumber_offer (w : Worker) (e : Event) :
    (w.offer e).renumber kept = (w.renumber kept).offer (e.renumber kept) := by
  unfold offer
  rw [refusal?_renumber, renumber_attached]
  split <;> simp [renumber]

theorem listener_offer (w : Worker) (e : Event) : (w.offer e).listener = w.listener := by
  unfold offer
  split <;> rfl

def Effect.renumber (kept : Nat → Bool) (r : Effect) : Effect where
  worker := r.worker.renumber kept
  begun? := r.begun?.map (Event.renumber kept)
  told? := r.told?

/-- A worker's step does not look at the numbers of its events. -/
theorem act?_renumber (w : Worker) (y : ListenerAction) :
    (w.renumber kept).act? y = (w.act? y).map (Effect.renumber kept) := by
  obtain ⟨l, capacity, attached, queue, status⟩ := w
  cases y with
  | add | remove | close => rfl
  | take => cases status <;> cases queue <;> rfl
  | returned | panicked | die => cases status <;> rfl
  | exit =>
    cases status <;> simp [act?, renumber, WorkerStatus.renumber, Option.map_if, Effect.renumber]

theorem act?_takenAt (w : Worker) (y : ListenerAction) (place : Nat) :
    w.act? (y.takenAt place) = w.act? y := by
  cases y <;> rfl

end Worker

end Quiesce
