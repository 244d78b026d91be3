import Mathlib.Data.List.Induction
import Quiesce.Hub
/-!
# What one action does to one worker

`WorkerStep` lists everything that an action on the hub can do to a given worker, with what is known
when it does it and with the event that the listener begins to handle, if it begins with one.
`worker_step` says that the list is complete: whatever happens to other workers does not concern
this one, and an event reaches it only by being offered to it. New workers come from admissions
alone (`worker_of_step`), and an event that is offered is the youngest there is (`seq_of_offered?`).
Over a history a worker keeps its listener and its capacity, and is attached until an action ends
the membership (`worker_after`).
-/

namespace Quiesce

/-- The action ends the membership of the listener, if it is a member. -/
def HubAction.ends (l : Listener) : HubAction → Bool
  | .listeners (.remove l') => l' = l
  | .listeners .close => true
  | _ => false

/-- The worker that takes this step. -/
def ListenerAction.worker? : ListenerAction → Option Nat
  | take id | returned id | panicked id _ | die id | exit id => some id
  | add _ | remove _ | close => none

namespace Hub

variable {h : Hub} {x : HubAction} {id j : Nat} {w w' : Worker} {e : Event} {es : List Event}
  {l : Listener}

/-- The event that an action creates and offers to the members. -/
def offered? (h : Hub) : HubAction → Option Event
  | .distribute n | .emit n => some (h.next n)
  | .listeners _ | .publish _ => none

/-- The events that the listener of worker `id` has begun to handle so far, oldest first. -/
def begun (h : Hub) (id : Nat) : List Event :=
  (h.deliveries.toList.filter fun d => d.worker = id).map Delivery.event

/-- What an action does to worker `id`: the worker that it becomes, and the events that its listener
begins to handle. -/
inductive WorkerStep (h : Hub) (id : Nat) (w : Worker) : HubAction → Worker → List Event → Prop
  /-- The action does not concern the worker, or the worker cannot do what is asked. -/
  | stayed (x : HubAction) (unended : w.attached = true → x.ends w.listener = false)
      (refused : ∀ e, h.offered? x = some e → w.attached = true → w.refusal? ≠ none) :
    WorkerStep h id w x w []
  | accepted (x : HubAction) (e : Event) (offered : h.offered? x = some e)
      (attached : w.attached = true) (room : w.refusal? = none) :
    WorkerStep h id w x { w with queue := w.queue ++ [e] } []
  | took (e : Event) (rest : List Event) (free : w.status = .idle) (queue : w.queue = e :: rest) :
    WorkerStep h id w (.listeners (.take id)) { w with queue := rest, status := .handling e } [e]
  /-- The listener is done with an event, or it panicked over it. -/
  | finished (x : HubAction) (e : Event) (handling : w.status = .handling e)
      (own : x = .listeners (.returned id) ∨ ∃ p, x = .listeners (.panicked id p)) :
    WorkerStep h id w x { w with status := .idle } []
  | died (e : Event) (handling : w.status = .handling e) :
    WorkerStep h id w (.listeners (.die id)) { w with queue := [], status := .dead } []
  | exited (detached : w.attached = false) (drained : w.queue = []) (free : w.status = .idle) :
    WorkerStep h id w (.listeners (.exit id)) { w with status := .exited } []
  | detached (x : HubAction) (ends : x.ends w.listener = true) : WorkerStep h id w x w.detach []

/-! ## Parts of a hub -/

@[simp] theorem publish_workers (h : Hub) (n : Notice) : (h.publish n).workers = h.workers := rfl

theorem foldl_publish (ns : List Notice) (h : Hub) :
    (ns.foldl publish h).workers = h.workers ∧ (ns.foldl publish h).deliveries = h.deliveries ∧
      (ns.foldl publish h).queueOverride? = h.queueOverride? := by
  induction ns generalizing h with
  | nil => exact ⟨rfl, rfl, rfl⟩
  | cons n ns ih => exact ih (h.publish n)

@[simp] theorem distribute_workers (h : Hub) (n : Notice) :
    (h.distribute n).workers = h.workers.map fun w => w.offer (h.next n) :=
  (foldl_publish _ _).1

@[simp] theorem distribute_deliveries (h : Hub) (n : Notice) :
    (h.distribute n).deliveries = h.deliveries :=
  (foldl_publish _ _).2.1

@[simp] theorem distribute_queueOverride? (h : Hub) (n : Notice) :
    (h.distribute n).queueOverride? = h.queueOverride? :=
  (foldl_publish _ _).2.2

theorem begun_of_deliveries {h h' : Hub} (same : h'.deliveries = h.deliveries) (id : Nat) :
    h'.begun id = h.begun id := by
  rw [begun, begun, same]

theorem begun_push {h h' : Hub} {d : Delivery} (push : h'.deliveries = h.deliveries.push d)
    (id : Nat) : h'.begun id = h.begun id ++ if d.worker = id then [d.event] else [] := by
  rw [begun, begun, push, Array.toList_push, List.filter_append, List.map_append]
  by_cases own : d.worker = id <;> simp [own]

theorem workers_setWorker (h : Hub) (j : Nat) (w : Worker) (id : Nat) (ne : j ≠ id) :
    (h.setWorker j w).workers[id]? = h.workers[id]? :=
  List.getElem?_set_ne ne

theorem workers_setWorker_self {w₀ : Worker} (worker : h.workers[id]? = some w₀) (w : Worker) :
    (h.setWorker id w).workers[id]? = some w :=
  List.getElem?_set_self (List.getElem?_eq_some_iff.1 worker).1

/-! ## The step of a worker -/

def Untouched (h h' : Hub) (id : Nat) : Prop :=
  h'.workers[id]? = h.workers[id]? ∧ h'.begun id = h.begun id

/-- The worker has made a step from `w`. -/
def Stepped (h : Hub) (id : Nat) (w : Worker) (x : HubAction) (h' : Hub) : Prop :=
  ∃ w' es, h'.workers[id]? = some w' ∧ h'.begun id = h.begun id ++ es ∧ h.WorkerStep id w x w' es

/-- What is no offer and ends no membership may leave a worker as it is. -/
theorem Untouched.stepped {h' : Hub} (same : Untouched h h' id) (worker : h.workers[id]? = some w)
    (unended : x.ends w.listener = false) (silent : h.offered? x = none) :
    h.Stepped id w x h' := by
  refine ⟨w, [], same.1.trans worker, by rw [same.2, List.append_nil],
    .stayed x (fun _ => unended) fun e offered => ?_⟩
  rw [silent] at offered
  cases offered

theorem untouched_of_worker? {y : ListenerAction} (own : y.worker? = some j) (ne : j ≠ id) :
    Untouched h (h.stepListeners y) id := by
  have kept : ∀ w, Untouched h (h.setWorker j w) id := fun w =>
    ⟨workers_setWorker h j w id ne, rfl⟩
  have same : Untouched h h id := ⟨rfl, rfl⟩
  cases y with
  | add | remove | close => cases own
  | take k =>
    cases own
    simp only [stepListeners, take]
    repeat' split
    · exact same
    · refine ⟨workers_setWorker h j _ id ne, ?_⟩
      rw [begun_push (d := ⟨j, _⟩) rfl, if_neg ne, List.append_nil]
      rfl
    · exact same
  | returned k | die k | exit k =>
    cases own
    simp only [stepListeners, returned, die, exit]
    repeat' split
    all_goals first
      | exact same
      | exact kept _
  | panicked k p =>
    cases own
    simp only [stepListeners, panicked]
    repeat' split
    · exact same
    · exact kept _
    · exact same

theorem stepped_of_worker? {y : ListenerAction} (own : y.worker? = some id)
    (worker : h.workers[id]? = some w) : h.Stepped id w (.listeners y) (h.stepListeners y) := by
  have same : h.stepListeners y = h → h.Stepped id w (.listeners y) (h.stepListeners y) := by
    intro unchanged
    refine Untouched.stepped ⟨by rw [unchanged], by rw [unchanged]⟩ worker ?_ rfl
    cases y <;> first
      | rfl
      | cases own
  have placed := workers_setWorker_self worker
  have begun_eq : ∀ w, (h.setWorker id w).begun id = h.begun id ++ [] := fun w => by
    rw [List.append_nil]
    rfl
  cases y with
  | add | remove | close => cases own
  | take k =>
    cases own
    cases status : w.status with
    | idle =>
      cases queue : w.queue with
      | nil => exact same (by simp [stepListeners, take, worker, status, queue])
      | cons e rest =>
        have taken : h.take id = { h.setWorker id { w with queue := rest, status := .handling e }
            with deliveries := h.deliveries.push ⟨id, e⟩ } := by
          simp [take, worker, status, queue, setWorker]
        refine ⟨_, [e], ?_, ?_, .took e rest status queue⟩
        · rw [stepListeners, taken]
          exact placed _
        · rw [stepListeners, begun_push (d := ⟨id, e⟩) (congrArg Hub.deliveries taken), if_pos rfl]
    | handling e | dead | exited => exact same (by simp [stepListeners, take, worker, status])
  | returned k =>
    cases own
    cases status : w.status with
    | handling e =>
      have done : h.returned id = h.setWorker id { w with status := .idle } := by
        simp [returned, worker, status]
      rw [stepListeners, done]
      exact ⟨_, [], placed _, begun_eq _, .finished _ e status (.inl rfl)⟩
    | idle | dead | exited => exact same (by simp [stepListeners, returned, worker, status])
  | panicked k p =>
    cases own
    cases status : w.status with
    | handling e =>
      have done : h.panicked id p = (h.setWorker id { w with status := .idle }).publish
          (.panicked w.listener.name p.info) := by
        simp [panicked, worker, status]
      rw [stepListeners, done]
      exact ⟨_, [], placed _, begun_eq { w with status := .idle },
        .finished _ e status (.inr ⟨p, rfl⟩)⟩
    | idle | dead | exited => exact same (by simp [stepListeners, panicked, worker, status])
  | die k =>
    cases own
    cases status : w.status with
    | handling e =>
      have died : h.die id = h.setWorker id { w with queue := [], status := .dead } := by
        simp [die, worker, status]
      rw [stepListeners, died]
      exact ⟨_, [], placed _, begun_eq _, .died e status⟩
    | idle | dead | exited => exact same (by simp [stepListeners, die, worker, status])
  | exit k =>
    cases own
    by_cases may : w.attached = false ∧ w.queue = [] ∧ w.status = .idle
    · have exited : h.exit id = h.setWorker id { w with status := .exited } := by
        simp [exit, worker, may]
      rw [stepListeners, exited]
      exact ⟨_, [], placed _, begun_eq _, .exited may.1 may.2.1 may.2.2⟩
    · exact same (by simp [stepListeners, exit, worker, may])

theorem offer_step (offered : h.offered? x = some e) (unended : x.ends w.listener = false) :
    h.WorkerStep id w x (w.offer e) [] := by
  unfold Worker.offer
  by_cases accepts : (w.attached && w.refusal?.isNone) = true
  · obtain ⟨attached, room⟩ := Bool.and_eq_true_iff.1 accepts
    rw [if_pos accepts]
    exact .accepted x e offered attached (Option.isNone_iff_eq_none.1 room)
  · rw [if_neg accepts]
    refine .stayed x (fun _ => unended) fun _ _ attached room => accepts ?_
    simp [attached, room]

/-- **A worker does one of the things on the list.** -/
theorem worker_step (h : Hub) (x : HubAction) (worker : h.workers[id]? = some w) :
    h.Stepped id w x (h.step x) := by
  have quiet : ∀ {h' : Hub}, h'.deliveries = h.deliveries → h'.begun id = h.begun id ++ [] :=
    fun same => by rw [begun_of_deliveries same, List.append_nil]
  cases x with
  | publish n => exact Untouched.stepped ⟨rfl, rfl⟩ worker rfl rfl
  | distribute n =>
    refine ⟨w.offer (h.next n), [], ?_, quiet (distribute_deliveries h n), offer_step rfl rfl⟩
    simp [step, worker]
  | emit n =>
    refine ⟨w.offer (h.next n), [], ?_, quiet (distribute_deliveries h n), offer_step rfl rfl⟩
    simp [step, emit, worker]
  | listeners y =>
    cases y with
    | take k | returned k | panicked k p | die k | exit k =>
      by_cases own : k = id
      · exact stepped_of_worker? (own ▸ rfl) worker
      · exact (untouched_of_worker? rfl own).stepped worker rfl rfl
    | add l =>
      refine Untouched.stepped ?_ worker rfl rfl
      simp only [step, stepListeners, add]
      split
      · exact ⟨rfl, rfl⟩
      · exact ⟨List.getElem?_append_left (List.getElem?_eq_some_iff.1 worker).1, rfl⟩
    | remove l =>
      by_cases own : w.listener = l
      · refine ⟨w.detach, [], ?_, quiet rfl, .detached _ (by simp [HubAction.ends, own])⟩
        simp [step, stepListeners, remove, worker, own]
      · refine Untouched.stepped ⟨?_, rfl⟩ worker (by simp [HubAction.ends, Ne.symm own]) rfl
        simp [step, stepListeners, remove, worker, own]
    | close =>
      refine ⟨w.detach, [], ?_, quiet rfl, .detached _ rfl⟩
      simp [step, stepListeners, close, worker]

theorem WorkerStep.listener (s : h.WorkerStep id w x w' es) : w'.listener = w.listener := by
  cases s <;> rfl

theorem WorkerStep.capacity (s : h.WorkerStep id w x w' es) : w'.capacity = w.capacity := by
  cases s <;> rfl

theorem offered?_of_ends (ends : x.ends l = true) : h.offered? x = none := by
  cases x with
  | listeners y => rfl
  | distribute | publish | emit => cases ends

theorem WorkerStep.attached (s : h.WorkerStep id w x w' es) :
    w'.attached = (w.attached && !x.ends w.listener) := by
  cases s with
  | stayed x unended refused =>
    cases attached : w.attached with
    | false => rfl
    | true => rw [unended attached]; rfl
  | accepted x e offered attached room =>
    cases ends : x.ends w.listener with
    | false => simp
    | true =>
      rw [offered?_of_ends ends] at offered
      cases offered
  | finished x e handling own => rcases own with rfl | ⟨p, rfl⟩ <;> simp [HubAction.ends]
  | detached x ends => simp [Worker.detach, ends]
  | took | died | exited => simp [HubAction.ends]

/-! ## The other parts of a hub -/

theorem length_workers_step (h : Hub) (x : HubAction) :
    (h.step x).workers.length = h.workers.length ∨
      ∃ l, x = .listeners (.add l) ∧ h.contains l = false ∧
        (h.step x).workers = h.workers ++ [Worker.create l h.queueOverride?] := by
  cases x with
  | publish n => exact .inl rfl
  | distribute n => exact .inl (by simp [step])
  | emit n => exact .inl (by simp [step, emit])
  | listeners y =>
    cases y with
    | add l =>
      cases member : h.contains l with
      | true => exact .inl (by simp [step, stepListeners, add, member])
      | false => exact .inr ⟨l, rfl, member, by simp [step, stepListeners, add, member]⟩
    | remove l => exact .inl (by simp [step, stepListeners, remove])
    | close => exact .inl (by simp [step, stepListeners, close])
    | take | returned | panicked | die | exit =>
      refine .inl ?_
      simp only [step, stepListeners, take, returned, panicked, die, exit]
      repeat' split
      all_goals simp [setWorker]

theorem worker_of_step (new : h.workers.length ≤ id) (worker : (h.step x).workers[id]? = some w) :
    ∃ l, x = .listeners (.add l) ∧ h.contains l = false ∧ id = h.workers.length ∧
      w = Worker.create l h.queueOverride? := by
  have lt := (List.getElem?_eq_some_iff.1 worker).1
  rcases length_workers_step h x with same | ⟨l, add, admitted, workers⟩
  · omega
  · rw [workers, List.length_append, List.length_singleton] at lt
    have last : id = h.workers.length := by omega
    subst last
    rw [workers, List.getElem?_concat_length] at worker
    exact ⟨l, add, admitted, rfl, (Option.some.inj worker).symm⟩

@[simp] theorem queueOverride?_step (h : Hub) (x : HubAction) :
    (h.step x).queueOverride? = h.queueOverride? := by
  cases x with
  | publish n => rfl
  | distribute n => exact distribute_queueOverride? h n
  | emit n => exact distribute_queueOverride? h n
  | listeners y =>
    cases y with
    | remove | close => rfl
    | add | take | returned | panicked | die | exit =>
      simp only [step, stepListeners, add, take, returned, panicked, die, exit]
      repeat' split
      all_goals rfl

/-- Whatever a listener begins with comes from the queue of one of the workers. -/
theorem deliveries_step (h : Hub) (x : HubAction) :
    (h.step x).deliveries = h.deliveries ∨ ∃ d w, h.workers[d.worker]? = some w ∧
      d.event ∈ w.queue ∧ (h.step x).deliveries = h.deliveries.push d := by
  cases x with
  | publish n => exact .inl rfl
  | distribute n => exact .inl (distribute_deliveries h n)
  | emit n => exact .inl (distribute_deliveries h n)
  | listeners y =>
    cases y with
    | remove | close => exact .inl rfl
    | take j =>
      cases worker : h.workers[j]? with
      | none => exact .inl (by simp [step, stepListeners, take, worker])
      | some w =>
        simp only [step, stepListeners, take, worker]
        split
        · next e rest _ queue =>
          refine .inr ⟨⟨j, e⟩, w, worker, ?_, rfl⟩
          rw [queue]
          exact List.mem_cons_self
        · exact .inl rfl
    | add | returned | panicked | die | exit =>
      refine .inl ?_
      simp only [step, stepListeners, add, returned, panicked, die, exit]
      repeat' split
      all_goals rfl

/-- An action adds events to the journal, the one that it offers first of all. -/
theorem journal_step (h : Hub) (x : HubAction) :
    ∃ es, (h.step x).journal.toList = h.journal.toList ++ es ∧
      ∀ e, h.offered? x = some e → ∃ drops, es = e :: drops := by
  cases x with
  | publish n => exact ⟨[h.next n], by simp [step, journal_publish], fun e none => by cases none⟩
  | distribute n | emit n =>
    obtain ⟨drops, journal, -⟩ := journal_emit h n
    refine ⟨h.next n :: drops, journal, fun e offered => ⟨drops, ?_⟩⟩
    cases offered
    rfl
  | listeners y =>
    rcases journal_stepListeners h y with same | ⟨name, info, journal⟩
    · exact ⟨[], by simp [step, same], fun e none => by cases none⟩
    · exact ⟨[h.next (.panicked name info)], by simp [step, journal], fun e none => by cases none⟩

theorem seq_of_offered? (offered : h.offered? x = some e) : e.seq = h.journal.size := by
  cases x with
  | distribute n | emit n =>
    cases offered
    rfl
  | publish | listeners => cases offered

theorem size_journal_le_step (h : Hub) (x : HubAction) :
    h.journal.size ≤ (h.step x).journal.size := by
  obtain ⟨es, journal, -⟩ := journal_step h x
  rw [← Array.length_toList, ← Array.length_toList, journal, List.length_append]
  exact Nat.le_add_right _ _

theorem size_journal_lt_step (offered : h.offered? x = some e) :
    h.journal.size < (h.step x).journal.size := by
  obtain ⟨es, journal, first⟩ := journal_step h x
  obtain ⟨drops, rfl⟩ := first e offered
  rw [← Array.length_toList, ← Array.length_toList, journal, List.length_append, List.length_cons]
  omega

/-! ## Histories -/

@[simp] theorem after_nil (h : Hub) : h.after [] = h := rfl

@[simp] theorem after_cons (h : Hub) (x : HubAction) (later : List HubAction) :
    h.after (x :: later) = (h.step x).after later := rfl

theorem after_append (h : Hub) (earlier later : List HubAction) :
    h.after (earlier ++ later) = (h.after earlier).after later :=
  List.foldl_append

@[simp] theorem after_concat (h : Hub) (later : List HubAction) (x : HubAction) :
    h.after (later ++ [x]) = (h.after later).step x := by
  rw [after_append]; rfl

/-- A hub with its first members is one to which they were added first. -/
theorem create_eq_after (busCapacity : Nat) (queueOverride? : Option Nat) (ls : List Listener) :
    create busCapacity queueOverride? ls =
      (create busCapacity queueOverride? []).after (ls.map fun l => .listeners (.add l)) := by
  rw [after, List.foldl_map]
  rfl

/-- A worker keeps its listener and its capacity, and remains attached until its membership ends. -/
theorem worker_after (worker : h.workers[id]? = some w) (later : List HubAction) :
    ∃ w', (h.after later).workers[id]? = some w' ∧ w'.listener = w.listener ∧
      w'.capacity = w.capacity ∧
      w'.attached = (w.attached && later.all fun x => !x.ends w.listener) := by
  induction later generalizing h w with
  | nil => exact ⟨w, worker, rfl, rfl, by simp⟩
  | cons x later ih =>
    obtain ⟨w₁, es, worker₁, -, s⟩ := worker_step h x worker
    obtain ⟨w', worker', listener, capacity, attached⟩ := ih worker₁
    refine ⟨w', worker', listener.trans s.listener, capacity.trans s.capacity, ?_⟩
    rw [attached, s.listener, s.attached, List.all_cons, Bool.and_assoc]

theorem queueOverride?_after (h : Hub) (history : List HubAction) :
    (h.after history).queueOverride? = h.queueOverride? := by
  induction history generalizing h with
  | nil => rfl
  | cons x history ih => rw [after_cons, ih, queueOverride?_step]

theorem worker_of_delivery (busCapacity : Nat) (queueOverride? : Option Nat)
    (history : List HubAction) :
    ∀ d ∈ ((create busCapacity queueOverride? []).after history).deliveries.toList,
      d.worker < ((create busCapacity queueOverride? []).after history).workers.length := by
  induction history using List.reverseRecOn with
  | nil => intro d none; cases none
  | append_singleton history x ih =>
    rw [after_concat]
    generalize (create busCapacity queueOverride? []).after history = h at ih
    have grows : h.workers.length ≤ (h.step x).workers.length := by
      rcases length_workers_step h x with same | ⟨l, -, -, workers⟩
      · exact Nat.le_of_eq same.symm
      · simp [workers]
    intro d made
    rcases deliveries_step h x with same | ⟨d', w, worker, -, push⟩
    · exact Nat.lt_of_lt_of_le (ih d (same ▸ made)) grows
    · rw [push, Array.toList_push, List.mem_append, List.mem_singleton] at made
      rcases made with old | rfl
      · exact Nat.lt_of_lt_of_le (ih d old) grows
      · exact Nat.lt_of_lt_of_le (List.getElem?_eq_some_iff.1 worker).1 grows

theorem begun_of_length_le {busCapacity : Nat} {queueOverride? : Option Nat}
    {history : List HubAction}
    (new : ((create busCapacity queueOverride? []).after history).workers.length ≤ id) :
    ((create busCapacity queueOverride? []).after history).begun id = [] := by
  rw [begun, List.map_eq_nil_iff, List.filter_eq_nil_iff]
  intro d made
  have known := worker_of_delivery busCapacity queueOverride? history d made
  simp only [decide_eq_true_eq]
  omega

end Hub

end Quiesce
