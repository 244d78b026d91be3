import Quiesce.Proofs.WorkerStep
/-!
# What a hub has on record

The actions on a hub, taken apart: a worker's step is an `Effect`, which the hub takes in by parts
(`stepListeners_eq_put`), and an emission is an offer to all members, the drops and an announcement
(`emit_eq`). Every part keeps the records in order (`Recorded`): events are numbered by their places
in the journal, nothing is published, queued or handled that is not in the journal, and listeners
are not told of listeners.
-/

namespace Quiesce

namespace Worker

variable {w : Worker}

theorem told_of_dropNotice? {n : Notice} (drop : w.dropNotice? = some n) :
    n.kind.isSubscriberEvent = true ∧ n.activity = some w.listener.name := by
  unfold dropNotice? at drop
  split at drop
  · obtain ⟨reason, -, rfl⟩ := Option.map_eq_some_iff.1 drop
    exact ⟨rfl, rfl⟩
  · cases drop

/-! ## The step of a worker -/

/-- What comes of a step that a worker takes by itself. -/
structure Effect where
  worker : Worker
  /-- The event that the listener begins to handle. -/
  begun? : Option Event := none
  /-- What the bus is told. -/
  told? : Option Notice := none

/-- The step of a worker; nothing if it cannot do what is asked. -/
def act? (w : Worker) : ListenerAction → Option Effect
  | .take _ =>
    match w.status, w.queue with
    | .idle, e :: rest =>
      some { worker := { w with queue := rest, status := .handling e }, begun? := some e }
    | _, _ => none
  | .returned _ =>
    match w.status with
    | .handling _ => some { worker := { w with status := .idle } }
    | _ => none
  | .panicked _ p =>
    match w.status with
    | .handling _ =>
      some {
        worker := { w with status := .idle }
        told? := some (.panicked w.listener.name p.info) }
    | _ => none
  | .die _ =>
    match w.status with
    | .handling _ => some { worker := { w with queue := [], status := .dead } }
    | _ => none
  | .exit _ =>
    if w.attached = false ∧ w.queue = [] ∧ w.status = .idle then
      some { worker := { w with status := .exited } }
    else none
  | .add _ | .remove _ | .close => none

variable {r : Effect} {y : ListenerAction}

/-- What is known of every effect: the worker keeps its listener and queues nothing, the listener
begins with something queued, and a panic is reported under the listener's name. -/
structure Effect.Of (w : Worker) (r : Effect) : Prop where
  listener : r.worker.listener = w.listener
  queue : r.worker.queue ⊆ w.queue
  begun : ∀ e, r.begun? = some e → e ∈ w.queue
  told : ∀ n, r.told? = some n →
    n.kind.isSubscriberEvent = true ∧ n.activity = some w.listener.name

/-- The worker is on with something else, and keeps quiet about it. -/
theorem Effect.Of.silent {w' : Worker} (listener : w'.listener = w.listener)
    (queue : w'.queue ⊆ w.queue) : Effect.Of w { worker := w' } where
  listener := listener
  queue := queue
  begun e nothing := by cases nothing
  told n nothing := by cases nothing

theorem effect_of_act? (acts : w.act? y = some r) : r.Of w := by
  cases y with
  | add | remove | close => cases acts
  | take id =>
    simp only [act?] at acts
    split at acts
    · next e rest _ queue =>
      cases acts
      refine ⟨rfl, ?_, ?_, fun n nothing => by cases nothing⟩
      · rw [queue]
        exact List.subset_cons_self _ _
      · intro e' begins
        cases begins
        rw [queue]
        exact List.mem_cons_self
    · cases acts
  | returned id =>
    simp only [act?] at acts
    split at acts
    · cases acts
      exact .silent rfl (List.Subset.refl _)
    · cases acts
  | panicked id p =>
    simp only [act?] at acts
    split at acts
    · cases acts
      refine ⟨rfl, List.Subset.refl _, ?_, ?_⟩
      · intro e nothing
        cases nothing
      · intro n told
        cases told
        exact ⟨rfl, rfl⟩
    · cases acts
  | die id =>
    simp only [act?] at acts
    split at acts
    · cases acts
      exact .silent rfl (List.nil_subset _)
    · cases acts
  | exit id =>
    simp only [act?] at acts
    split at acts
    · cases acts
      exact .silent rfl (List.Subset.refl _)
    · cases acts

end Worker

namespace Hub

variable {h : Hub} {y : ListenerAction} {w : Worker} {id : Nat}

/-- A listener begins to handle an event. -/
def begin (h : Hub) (d : Delivery) : Hub := { h with deliveries := h.deliveries.push d }

/-- The hub when a worker has made its step, before the bus is told. -/
def settle (h : Hub) (id : Nat) (r : Worker.Effect) : Hub :=
  (r.begun?.map (Delivery.mk id)).elim (h.setWorker id r.worker) (h.setWorker id r.worker).begin

def put (h : Hub) (id : Nat) (r : Worker.Effect) : Hub :=
  r.told?.elim (h.settle id r) (h.settle id r).publish

@[simp] theorem journal_settle (h : Hub) (id : Nat) (r : Worker.Effect) :
    (h.settle id r).journal = h.journal := by
  unfold settle
  cases r.begun? <;> rfl

theorem stepListeners_eq_put (own : y.worker? = some id) :
    h.stepListeners y =
      ((h.workers[id]?).bind fun w => w.act? y).elim h (h.put id) := by
  cases y with
  | add | remove | close => cases own
  | take j | returned j | panicked j p | die j | exit j =>
    cases own
    cases worker : h.workers[id]? with
    | none => simp [stepListeners, take, returned, panicked, die, exit, worker]
    | some w =>
      obtain ⟨l, capacity, attached, queue, status⟩ := w
      simp only [stepListeners, take, returned, panicked, die, exit, worker, Option.bind_some]
      cases status <;> cases queue <;> cases attached <;> rfl

/-! ## An emission -/

/-- Creates an event and offers it to every member, and tells nobody of the drops. -/
def offer (h : Hub) (n : Notice) : Hub :=
  { h with
    journal := h.journal.push (h.next n)
    workers := h.workers.map fun w => w.offer (h.next n) }

/-- Publishes an event that was created before. -/
def announce (h : Hub) (e : Event) : Hub := { h with bus := h.bus.publish e }

theorem emit_eq (h : Hub) (n : Notice) :
    h.emit n = ((h.workers.filterMap Worker.dropNotice?).foldl publish (h.offer n)).announce
      (h.next n) := rfl

/-! ## The records -/

/-- The events are numbered by their places in the journal. -/
def Numbered (h : Hub) : Prop := h.journal.toList.map Event.seq = List.range h.journal.size

theorem Numbered.push {h' : Hub} (numbered : h.Numbered) {n : Notice}
    (journal : h'.journal = h.journal.push (h.next n)) : h'.Numbered := by
  rw [Numbered, journal, Array.toList_push, List.map_append, Array.size_push, List.range_succ]
  exact congrArg (· ++ [h.journal.size]) numbered

theorem Numbered.publish (numbered : h.Numbered) (n : Notice) : (h.publish n).Numbered :=
  numbered.push (journal_publish h n)

theorem Numbered.seq_eq (numbered : h.Numbered) {i : Nat} {e : Event}
    (here : h.journal.toList[i]? = some e) : e.seq = i := by
  have known : i < h.journal.size := by simpa using (List.getElem?_eq_some_iff.1 here).1
  have number : (h.journal.toList.map Event.seq)[i]? = some e.seq := by
    rw [List.getElem?_map, here, Option.map_some]
  rw [numbered, List.getElem?_range known] at number
  exact (Option.some.inj number).symm

/-- Every delivery was made by a worker that was there. -/
def Known (h : Hub) : Prop := ∀ d ∈ h.deliveries.toList, d.worker < h.workers.length

/-- The event was created, and it is none about a listener. -/
def Tells (h : Hub) (e : Event) : Prop :=
  e ∈ h.journal.toList ∧ e.kind.isSubscriberEvent = false

/-- Whatever is published, queued or handled was created before, and listeners are told of the
server only. -/
structure Recorded (h : Hub) : Prop where
  numbered : h.Numbered
  known : h.Known
  published : ∀ e ∈ h.bus.stream.toList, e ∈ h.journal.toList
  queued : ∀ w ∈ h.workers, ∀ e ∈ w.queue, h.Tells e
  begun : ∀ d ∈ h.deliveries.toList, h.Tells d.event

theorem Tells.push {h' : Hub} {e e' : Event} (tells : h.Tells e)
    (journal : h'.journal = h.journal.push e') : h'.Tells e :=
  ⟨by rw [journal, Array.toList_push]; exact List.mem_append_left _ tells.1, tells.2⟩

theorem Recorded.publish (recorded : h.Recorded) (n : Notice) : (h.publish n).Recorded where
  numbered := recorded.numbered.publish n
  known := recorded.known
  published e published := by
    simp only [Hub.publish, Bus.publish, Array.toList_push, List.mem_append] at published ⊢
    exact published.imp_left (recorded.published e)
  queued w member e queued := (recorded.queued w member e queued).push (journal_publish h n)
  begun d made := (recorded.begun d made).push (journal_publish h n)

theorem Recorded.foldl_publish (recorded : h.Recorded) (ns : List Notice) :
    (ns.foldl Hub.publish h).Recorded := by
  induction ns generalizing h with
  | nil => exact recorded
  | cons n ns ih => exact ih (recorded.publish n)

theorem Recorded.of_workers (recorded : h.Recorded) {ws : List Worker}
    (grows : h.workers.length ≤ ws.length)
    (queued : ∀ w ∈ ws, ∀ e ∈ w.queue, h.Tells e) : { h with workers := ws }.Recorded where
  numbered := recorded.numbered
  known d made := Nat.lt_of_lt_of_le (recorded.known d made) grows
  published := recorded.published
  queued := queued
  begun := recorded.begun

theorem Recorded.add (recorded : h.Recorded) (l : Listener) : (h.add l).Recorded := by
  unfold Hub.add
  split
  · exact recorded
  · refine recorded.of_workers (by simp) fun w member e queued => ?_
    rcases List.mem_append.1 member with old | new
    · exact recorded.queued w old e queued
    · cases List.mem_singleton.1 new
      cases queued

theorem Recorded.map (recorded : h.Recorded) {f : Worker → Worker}
    (queue : ∀ w, (f w).queue = w.queue) : { h with workers := h.workers.map f }.Recorded := by
  refine recorded.of_workers (by simp) fun w member e queued => ?_
  obtain ⟨v, old, rfl⟩ := List.mem_map.1 member
  exact recorded.queued v old e (queue v ▸ queued)

theorem Recorded.begin (recorded : h.Recorded) {d : Delivery}
    (known : d.worker < h.workers.length) (tells : h.Tells d.event) : (h.begin d).Recorded where
  numbered := recorded.numbered
  known d' made := by
    rcases List.mem_append.1 (Array.toList_push ▸ made) with old | now
    · exact recorded.known d' old
    · exact List.mem_singleton.1 now ▸ known
  published := recorded.published
  queued := recorded.queued
  begun d' made := by
    rcases List.mem_append.1 (Array.toList_push ▸ made) with old | now
    · exact recorded.begun d' old
    · exact List.mem_singleton.1 now ▸ tells

theorem Recorded.settle (recorded : h.Recorded) {r : Worker.Effect}
    (worker : h.workers[id]? = some w) (acts : w.act? y = some r) : (h.settle id r).Recorded := by
  have effect := Worker.effect_of_act? acts
  have member := List.mem_of_getElem? worker
  have set : (h.setWorker id r.worker).Recorded := by
    refine recorded.of_workers (by simp) fun v found e queued => ?_
    rcases List.mem_or_eq_of_mem_set found with old | rfl
    · exact recorded.queued v old e queued
    · exact recorded.queued w member e (effect.queue queued)
  unfold Hub.settle
  cases begins : r.begun? with
  | none => exact set
  | some e =>
    refine set.begin ?_ (recorded.queued w member e (effect.begun e begins))
    simpa [setWorker] using (List.getElem?_eq_some_iff.1 worker).1

theorem Recorded.stepListeners (recorded : h.Recorded) (y : ListenerAction) :
    (h.stepListeners y).Recorded := by
  cases own : y.worker? with
  | some id =>
    rw [stepListeners_eq_put own]
    cases worker : h.workers[id]? with
    | none => exact recorded
    | some w =>
      rw [Option.bind_some]
      cases acts : w.act? y with
      | none => exact recorded
      | some r =>
        have settled := recorded.settle worker acts
        rw [Option.elim_some, put]
        cases r.told? with
        | none => exact settled
        | some n => exact settled.publish n
  | none =>
    cases y with
    | add l => exact recorded.add l
    | remove l => exact recorded.map fun w => by split <;> rfl
    | close => exact recorded.map fun w => rfl
    | _ => cases own

theorem Recorded.offer (recorded : h.Recorded) {n : Notice}
    (server : n.kind.isSubscriberEvent = false) : (h.offer n).Recorded := by
  have created : (h.offer n).journal = h.journal.push (h.next n) := rfl
  refine ⟨recorded.numbered.push created, fun d made => ?_, fun e published => ?_,
    fun w member e queued => ?_, fun d made => (recorded.begun d made).push created⟩
  · simpa [Hub.offer] using recorded.known d made
  · rw [created, Array.toList_push]
    exact List.mem_append_left _ (recorded.published e published)
  · obtain ⟨v, old, rfl⟩ := List.mem_map.1 member
    unfold Worker.offer at queued
    split at queued
    · rcases List.mem_append.1 queued with before | now
      · exact (recorded.queued v old e before).push created
      · cases List.mem_singleton.1 now
        exact ⟨by simp [created], server⟩
    · exact (recorded.queued v old e queued).push created

theorem Recorded.announce (recorded : h.Recorded) {e : Event} (created : e ∈ h.journal.toList) :
    (h.announce e).Recorded where
  numbered := recorded.numbered
  known := recorded.known
  published e' published := by
    simp only [Hub.announce, Bus.publish, Array.toList_push, List.mem_append,
      List.mem_singleton] at published
    rcases published with before | rfl
    · exact recorded.published e' before
    · exact created
  queued := recorded.queued
  begun := recorded.begun

theorem Recorded.emit (recorded : h.Recorded) {n : Notice}
    (server : n.kind.isSubscriberEvent = false) : (h.emit n).Recorded := by
  obtain ⟨es, journal, -⟩ :=
    foldl_publish_grows (h.workers.filterMap Worker.dropNotice?) (h.offer n)
  rw [emit_eq]
  refine ((recorded.offer server).foldl_publish _).announce ?_
  rw [journal]
  simp [Hub.offer]

theorem recorded_create (busCapacity : Nat) (queueOverride? : Option Nat) (ls : List Listener) :
    (create busCapacity queueOverride? ls).Recorded := by
  induction ls using List.reverseRecOn with
  | nil => constructor <;> simp [create, Numbered, Known, Bus.create]
  | append_singleton ls l ih =>
    rw [create, List.foldl_append]
    exact ih.add l

end Hub

end Quiesce
