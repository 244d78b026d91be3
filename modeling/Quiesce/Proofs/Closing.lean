import Quiesce.Proofs.ListenerOrder
/-!
# What a close waits for

A close ends every membership at once, and then waits for the workers of those who were members.
Such a worker is offered nothing more, so it has only to handle what is queued: it goes on until its
queue is empty and exits, unless it breaks over an event (`drained_after`). What its listener has
begun to handle it has also handled to the end, but for the event in hand (`handled_eq`). So when
all workers have ended, each has handled all that it accepted, or broke; and as long as one has not,
and none can do anything on its own, some listener is busy with an event (`close_drains`).
-/

namespace Quiesce

/-- The event that the worker's listener is handling. -/
def Worker.inHand? (w : Worker) : Option Event :=
  match w.status with
  | .handling e => some e
  | .idle | .dead | .exited => none

/-- The listener of worker `id` comes to the end of an event: it returned, or it panicked. -/
def HubAction.endsHandling (id : Nat) : HubAction → Bool
  | .listeners (.returned j) | .listeners (.panicked j _) => j = id
  | _ => false

namespace Hub

variable {h : Hub} {x : HubAction} {id : Nat} {v w w' : Worker} {e : Event} {es : List Event}
  {l : Listener} {past later : List HubAction}

/-- The event over which an action ends the listener's handling. -/
def handled? (h : Hub) (id : Nat) (x : HubAction) : Option Event :=
  if x.endsHandling id then h.workers[id]?.bind Worker.inHand? else none

/-- The events that the listener of worker `id` handles to the end in the course of a history. -/
def handled (h : Hub) (id : Nat) : List HubAction → List Event
  | [] => []
  | x :: later => (h.handled? id x).toList ++ (h.step x).handled id later

/-- No worker can begin with an event or finish. -/
def Settled (h : Hub) : Prop := ∀ id, h.take id = h ∧ h.exit id = h

/-! ## Handling to the end -/

theorem handled?_eq (worker : h.workers[id]? = some w) (x : HubAction) :
    h.handled? id x = if x.endsHandling id then w.inHand? else none := by
  rw [handled?, worker, Option.bind_some]

theorem status_of_endsHandling (worker : h.workers[id]? = some w) (handling : w.inHand? = some e)
    (ends : x.endsHandling id = true) :
    ∃ w', (h.step x).workers[id]? = some w' ∧ w'.inHand? = none := by
  have status : w.status = .handling e := by
    cases own : w.status <;> simp_all [Worker.inHand?]
  have freed := workers_setWorker_self worker { w with status := .idle }
  cases x with
  | listeners y =>
    cases y with
    | returned j =>
      obtain rfl : j = id := by simpa [HubAction.endsHandling] using ends
      exact ⟨_, by simpa [step, stepListeners, returned, worker, status] using freed, rfl⟩
    | panicked j p =>
      obtain rfl : j = id := by simpa [HubAction.endsHandling] using ends
      exact ⟨_, by simpa [step, stepListeners, panicked, worker, status] using freed, rfl⟩
    | _ => cases ends
  | _ => cases ends

/-- **What a listener begins with is in hand until it is handled to the end.** -/
theorem WorkerStep.handles (s : h.WorkerStep id w x w' es) (worker : h.workers[id]? = some w)
    (worker' : (h.step x).workers[id]? = some w') (unbroken : w'.status ≠ .dead) :
    w.inHand?.toList ++ es = (h.handled? id x).toList ++ w'.inHand?.toList := by
  rw [handled?_eq worker]
  cases s with
  | stayed x unended refused =>
    cases ends : x.endsHandling id with
    | false => simp
    | true =>
      -- A listener at work would have come to the end.
      cases handling : w.inHand? with
      | none => simp
      | some e =>
        obtain ⟨v, there, free⟩ := status_of_endsHandling worker handling ends
        rw [worker'] at there
        cases there
        rw [handling] at free
        cases free
  | accepted x e offered attached room =>
    cases x with
    | distribute n | emit n => simp [HubAction.endsHandling, Worker.inHand?]
    | publish | listeners => cases offered
  | took e rest free queue => simp [HubAction.endsHandling, Worker.inHand?, free]
  | finished x e handling own =>
    rcases own with rfl | ⟨p, rfl⟩ <;> simp [HubAction.endsHandling, Worker.inHand?, handling]
  | died e handling => exact absurd rfl unbroken
  | exited detached drained free => simp [HubAction.endsHandling, Worker.inHand?, free]
  | detached x ends =>
    cases x with
    | listeners y =>
      cases y with
      | remove l | close => simp [HubAction.endsHandling, Worker.inHand?, Worker.detach]
      | _ => cases ends
    | _ => cases ends

/-! ## Histories -/

theorem WorkerStep.drained (s : h.WorkerStep id w x w' es)
    (drained : w.status = .exited → w.queue = []) (exited : w'.status = .exited) :
    w'.queue = [] := by
  cases s with
  | accepted x e offered attached room =>
    have status : w.status = .exited := exited
    simp [Worker.refusal?, Worker.isTerminated, status] at room
  | stayed | detached => exact drained exited
  | exited detached queue free => exact queue
  | took | finished | died => cases exited

theorem drained_after (worker : h.workers[id]? = some w)
    (drained : w.status = .exited → w.queue = []) (later : List HubAction) :
    ∃ w', (h.after later).workers[id]? = some w' ∧ (w'.status = .exited → w'.queue = []) := by
  induction later generalizing h w with
  | nil => exact ⟨w, worker, drained⟩
  | cons x later ih =>
    obtain ⟨w', es, worker', -, s⟩ := worker_step h x worker
    exact ih worker' (s.drained drained)

theorem handled_append (h : Hub) (id : Nat) (earlier later : List HubAction) :
    h.handled id (earlier ++ later) =
      h.handled id earlier ++ (h.after earlier).handled id later := by
  induction earlier generalizing h with
  | nil => rfl
  | cons x earlier ih => simp [handled, ih]

/-- What the listener of an unbroken worker has begun with it has handled to the end, but for the
event in hand. -/
theorem handled_eq (worker : h.workers[id]? = some w) (free : w.inHand? = none)
    (later : List HubAction) (worker' : (h.after later).workers[id]? = some w')
    (unbroken : w'.status ≠ .dead) :
    (h.after later).begun id = h.begun id ++ h.handled id later ++ w'.inHand?.toList := by
  induction later using List.reverseRecOn generalizing w' with
  | nil =>
    rw [after_nil, worker] at worker'
    cases worker'
    simp [handled, free]
  | append_singleton later x ih =>
    rw [after_concat] at worker' ⊢
    obtain ⟨v, there, -⟩ := worker_after worker later
    obtain ⟨v', es, there', begun, s⟩ := worker_step (h.after later) x there
    rw [worker'] at there'
    cases there'
    have before : v.status ≠ .dead := fun dead => unbroken (s.of_dead there dead).1
    have moved := s.handles there worker' unbroken
    rw [begun, ih there before, handled_append]
    simp [handled, moved]

theorem worker_since (worker : (h.after later).workers[id]? = some w) :
    (∃ v, h.workers[id]? = some v) ∨ .listeners (.add w.listener) ∈ later := by
  induction later using List.reverseRecOn generalizing w with
  | nil => exact .inl ⟨w, worker⟩
  | append_singleton later x ih =>
    rw [after_concat] at worker
    rcases worker_origin worker with ⟨v, es, there, -, s⟩ | ⟨l, rfl, -, -, rfl⟩
    · refine (ih there).imp_right fun added => ?_
      rw [s.listener]
      exact List.mem_append_left _ added
    · exact .inr (by simp [Worker.create])

/-! ## Members -/

theorem contains_eq_true_iff : h.contains l = true ↔
    ∃ (id : Nat) (w : Worker), h.workers[id]? = some w ∧ w.attached = true ∧ w.listener = l := by
  simp only [contains, List.any_eq_true, Bool.and_eq_true, decide_eq_true_eq]
  constructor
  · rintro ⟨w, member, attached, own⟩
    obtain ⟨id, worker⟩ := List.getElem?_of_mem member
    exact ⟨id, w, worker, attached, own⟩
  · rintro ⟨id, w, worker, attached, own⟩
    exact ⟨w, List.mem_of_getElem? worker, attached, own⟩

theorem mem_members : id ∈ h.members ↔ ∃ w, h.workers[id]? = some w ∧ w.attached = true := by
  simp only [members, List.mem_filter, List.mem_range, Option.any_eq_true]
  constructor
  · rintro ⟨-, w, worker, attached⟩
    exact ⟨w, worker, attached⟩
  · rintro ⟨w, worker, attached⟩
    exact ⟨(List.getElem?_eq_some_iff.1 worker).1, w, worker, attached⟩

/-- A worker that is attached has been so since its listener was admitted. -/
theorem admitted_of_attached {h₀ : Hub} (empty : h₀.workers = [])
    (worker : (h₀.after past).workers[id]? = some w) (attached : w.attached = true) :
    ∃ before during, past = before ++ .listeners (.add w.listener) :: during ∧
      (h₀.after before).contains w.listener = false ∧
      (h₀.after before).workers.length = id ∧ ∀ x ∈ during, x.ends w.listener = false := by
  induction past using List.reverseRecOn generalizing w with
  | nil =>
    rw [after_nil, empty] at worker
    cases worker
  | append_singleton past x ih =>
    rw [after_concat] at worker
    rcases worker_origin worker with ⟨v, es, there, -, s⟩ | ⟨l, rfl, absent, rfl, rfl⟩
    · rw [s.attached, Bool.and_eq_true] at attached
      obtain ⟨before, during, rfl, admitted, place, lasts⟩ := ih there attached.1
      rw [s.listener]
      refine ⟨before, during ++ [x], by simp, admitted, place, fun y member => ?_⟩
      rcases List.mem_append.1 member with early | last
      · exact lasts y early
      · rw [List.mem_singleton.1 last]
        simpa using attached.2
    · exact ⟨past, [], rfl, absent, rfl, by simp⟩

/-! ## Closing -/

theorem worker_close (worker : h.workers[id]? = some w) :
    (h.step (.listeners .close)).workers[id]? = some w.detach := by
  simp [step, stepListeners, close, worker]

theorem detached_of_close (worker : (h.step (.listeners .close)).workers[id]? = some w) :
    w.attached = false := by
  have worker' : (h.workers[id]?).map Worker.detach = some w := by
    rw [← worker]
    simp [step, stepListeners, close]
  obtain ⟨v, -, rfl⟩ := Option.map_eq_some_iff.1 worker'
  rfl

theorem size_close (h : Hub) : (h.step (.listeners .close)).size = 0 := by
  simp [step, stepListeners, close, size, Worker.detach]

theorem contains_close (h : Hub) (l : Listener) :
    (h.step (.listeners .close)).contains l = false := by
  rw [← Bool.not_eq_true, contains_eq_true_iff]
  rintro ⟨id, w, worker, attached, -⟩
  rw [detached_of_close worker] at attached
  cases attached

theorem offers_of_close (worker : h.workers[id]? = some w) (later : List HubAction) :
    (h.step (.listeners .close)).offers id later = [] :=
  offers_of_detached (worker_close worker) rfl

theorem settled_of_busy (busy : ∀ w ∈ h.workers, w.inHand? ≠ none) : h.Settled := by
  intro id
  cases worker : h.workers[id]? with
  | none => simp [take, exit, worker]
  | some w =>
    have handling := busy w (List.mem_of_getElem? worker)
    cases status : w.status with
    | handling e => simp [take, exit, worker, status]
    | idle | dead | exited => simp [Worker.inHand?, status] at handling

theorem isTerminated_iff : w.isTerminated = true ↔ w.status = .dead ∨ w.status = .exited := by
  unfold Worker.isTerminated
  cases w.status <;> simp

/-- In a settled hub a worker that has been left and has not ended is busy with an event. -/
theorem Settled.busy (settled : h.Settled) (worker : h.workers[id]? = some w)
    (detached : w.attached = false) (alive : w.isTerminated = false) :
    ∃ e, w.status = .handling e := by
  obtain ⟨begins, finishes⟩ := settled id
  cases status : w.status with
  | handling e => exact ⟨e, rfl⟩
  | dead | exited => simp [Worker.isTerminated, status] at alive
  | idle =>
    cases queue : w.queue with
    | nil =>
      have exits : (h.exit id).workers[id]? = some { w with status := .exited } := by
        rw [exit, worker]
        simp only [detached, queue, status, and_self, if_true]
        rw [workers_setWorker_self worker]
      rw [finishes, worker] at exits
      cases (Option.some.inj exits).symm ▸ status
    | cons e rest =>
      have takes : (h.take id).deliveries = h.deliveries.push ⟨id, e⟩ := by
        simp [take, worker, status, queue, setWorker]
      have size := congrArg Array.size (begins ▸ takes)
      simp at size

/-- While a close is unfinished in a settled hub, some listener that was a member is busy. -/
theorem Settled.busy_member
    (settled : ((h.step (.listeners .close)).after later).Settled)
    (unfinished : ((h.step (.listeners .close)).after later).terminated h.members = false) :
    ∃ l id e, h.contains l = true ∧ id ∈ h.members ∧
      ((h.step (.listeners .close)).after later).Handles l id e := by
  obtain ⟨id, known, goes⟩ := List.all_eq_false.1 unfinished
  obtain ⟨w, worker, attached⟩ := mem_members.1 known
  obtain ⟨w', worker', listener, -, left⟩ := worker_after (worker_close worker) later
  rw [worker', Option.all_some, Bool.not_eq_true] at goes
  obtain ⟨e, busy⟩ := settled.busy worker' (by rw [left]; rfl) goes
  exact ⟨w.listener, id, e, contains_eq_true_iff.2 ⟨id, w, worker, attached, rfl⟩, known,
    w', worker', listener, busy⟩

/-! ## The law -/

/-- What the worker of a membership that was closed has accepted, if it is not broken it has handled
to the end by the time it exits. -/
theorem handled_of_exited {busCapacity : Nat} {queueOverride? : Option Nat}
    {before : List HubAction}
    (admitted : ((create busCapacity queueOverride? []).after before).contains l = false)
    (during later : List HubAction) :
    let opened := (create busCapacity queueOverride? []).after (before ++ [.listeners (.add l)])
    let id := ((create busCapacity queueOverride? []).after before).workers.length
    let rest := during ++ .listeners .close :: later
    ∃ w, (opened.after rest).workers[id]? = some w ∧ w.listener = l ∧
      (w.status = .exited → opened.handled id rest = acceptedOf (opened.offers id during)) := by
  intro opened id rest
  have fresh : opened.Account id [] [] (Worker.create l queueOverride?) := account_of_add admitted
  have alive : (Worker.create l queueOverride?).status ≠ .dead := by simp [Worker.create]
  obtain ⟨w, lost, account, -⟩ := account_after fresh alive rest
  obtain ⟨w₁, worker₁, listener, -, -⟩ := worker_after fresh.worker rest
  obtain ⟨w₂, worker₂, drained⟩ := drained_after fresh.worker (by simp [Worker.create]) rest
  obtain rfl : w = w₁ := Option.some.inj (account.worker.symm.trans worker₁)
  obtain rfl : w = w₂ := Option.some.inj (account.worker.symm.trans worker₂)
  refine ⟨w, worker₁, listener, fun exited => ?_⟩
  have unbroken : w.status ≠ .dead := by simp [exited]
  -- After the close nothing is offered, and in the end nothing is queued or in hand.
  obtain ⟨v, there, -⟩ := worker_after fresh.worker during
  have silent : opened.offers id rest = opened.offers id during := by
    have nothing := offers_of_close there later
    rw [offers_append, offers, nothing, offer?_of_silent rfl]
    simp
  have nothing : opened.begun id = [] := (List.append_eq_nil_iff.1 fresh.balance.symm).1
  have begun := handled_eq fresh.worker rfl rest worker₁ unbroken
  have balance := account.balance
  rw [silent, begun, nothing, drained exited, account.alive unbroken] at balance
  simpa [Worker.inHand?, exited] using balance.symm

/-- **A close drains what it removed.** Close a hub after any history, and let anything happen
afterwards. The hub has no members at once, and no listener is offered anything that is emitted
later, unless it is admitted again (1, 2). For each listener that was a member the close waits for
the worker of this membership. When the close finishes, that is when all these workers have ended,
this one broke, or it exited and its listener has handled to the end, in order, what the worker
accepted in the course of the membership (3). And while the close is unfinished and no worker can do
anything on its own, some listener that was a member is busy with an event in the hands of such a
worker (4). -/
theorem close_drains (busCapacity : Nat) (queueOverride? : Option Nat) (listeners : List Listener)
    (past later : List HubAction) :
    let h₀ := create busCapacity queueOverride? []
    let history := listeners.map (.listeners <| .add ·) ++ past
    let h := (create busCapacity queueOverride? listeners).after past
    let closed := h.step (.listeners .close)
    let now := closed.after later
    (closed.size = 0 ∧ ∀ l, closed.contains l = false) ∧
    (∀ l, .listeners (.add l) ∉ later → ∀ (id : Nat) (w : Worker), now.workers[id]? = some w →
      w.listener = l → closed.offers id later = []) ∧
    (∀ l, h.contains l = true → ∃ before during,
      h₀.Membership (history ++ .listeners .close :: later) l before during
        (.listeners .close :: later) ∧
      let id := (h₀.after before).workers.length
      let opened := h₀.after (before ++ [.listeners (.add l)])
      id ∈ h.members ∧ closed.offers id later = [] ∧
      (now.terminated h.members = true → ∃ w, now.workers[id]? = some w ∧ w.listener = l ∧
        (w.status = .dead ∨ w.status = .exited ∧
          opened.handled id (during ++ .listeners .close :: later) =
            acceptedOf (opened.offers id during)))) ∧
    (now.Settled → now.terminated h.members = false →
      ∃ l id e, h.contains l = true ∧ id ∈ h.members ∧ now.Handles l id e) := by
  intro h₀ history h closed now
  have start : h = h₀.after history := by
    simp only [h, h₀, history]
    rw [create_eq_after, ← after_append]
  have now_eq : now = h₀.after (history ++ .listeners .close :: later) := by
    rw [after_append, ← start]
    rfl
  refine ⟨⟨size_close h, contains_close h⟩, ?_, ?_, Settled.busy_member⟩
  · rintro l absent id w worker rfl
    obtain ⟨v, there⟩ := (worker_since worker).resolve_right absent
    exact offers_of_detached there (detached_of_close there)
  · intro l member
    obtain ⟨id, w, worker, attached, rfl⟩ := contains_eq_true_iff.1 member
    have known : id ∈ h.members := mem_members.2 ⟨w, worker, attached⟩
    have silent := offers_of_close worker later
    rw [start] at worker
    obtain ⟨before, during, split, admitted, rfl, lasts⟩ :=
      admitted_of_attached rfl worker attached
    refine ⟨before, during, ⟨by simp [split], admitted, lasts, ?_⟩, known, silent, fun ended => ?_⟩
    · rintro x first
      cases first
      rfl
    · have now_eq' : now = (h₀.after (before ++ [.listeners (.add w.listener)])).after
          (during ++ .listeners .close :: later) := by
        rw [now_eq, split, ← after_append]
        simp
      obtain ⟨w', worker', own, drained⟩ := handled_of_exited admitted during later
      rw [← now_eq'] at worker'
      refine ⟨w', worker', own, ?_⟩
      have ended := List.all_eq_true.1 ended _ known
      rw [worker', Option.all_some, isTerminated_iff] at ended
      exact ended.imp_right fun exited => ⟨exited, drained exited⟩

/-- A listener handles one event and has another queued when its hub is closed; then it is admitted
again. The close waits for the first worker, whose listener returns once and panics once. -/
theorem close_drains_busy :
    let l : Listener := { key := "l", name := "l" }
    let n : Notice := .suspendStarted
    let past : List HubAction := [.emit n, .emit n, .listeners (.take 0)]
    let later : List HubAction := [.listeners (.add l), .emit n, .listeners (.returned 0),
      .listeners (.take 0), .listeners (.panicked 0 .nonText), .listeners (.exit 0)]
    let h := (create 16 none [l]).after past
    let closed := h.step (.listeners .close)
    let opened := (create 16 none []).after [.listeners (.add l)]
    (closed.Settled ∧ closed.terminated h.members = false ∧
      ∃ l id e, h.contains l = true ∧ id ∈ h.members ∧ closed.Handles l id e) ∧
    (closed.after later).terminated h.members = true ∧
    opened.handled 0 (past ++ .listeners .close :: later) = [⟨n, 0⟩, ⟨n, 1⟩] ∧
    acceptedOf (opened.offers 0 past) = [⟨n, 0⟩, ⟨n, 1⟩] := by
  intro l n past later h closed opened
  have settled : closed.Settled := settled_of_busy (by decide)
  obtain ⟨-, -, -, busy⟩ := close_drains 16 none [l] past []
  obtain ⟨-, -, drains, -⟩ := close_drains 16 none [l] past later
  obtain ⟨before, during, member, -, -, drained⟩ := drains l (by decide)
  have split : before = [] ∧ during = past := by
    have split : .listeners (.add l) :: past = before ++ .listeners (.add l) :: during :=
      List.append_cancel_right (by simpa using member.split)
    cases before with
    | nil => exact ⟨rfl, (List.cons.inj split).2.symm⟩
    | cons x before =>
      have again : .listeners (.add l) ∈ past := by simp [(List.cons.inj split).2]
      exact absurd again (by decide)
  obtain ⟨rfl, rfl⟩ := split
  obtain ⟨w, worker, -, ended⟩ := drained (by decide)
  have exited : ((closed.after later).workers[0]?).map Worker.status = some .exited := by decide
  have worker : (closed.after later).workers[0]? = some w := worker
  rw [worker, Option.map_some] at exited
  have all := (ended.resolve_left (by simp_all)).2
  exact ⟨⟨settled, by decide, busy settled (by decide)⟩, by decide, all.trans (by decide),
    by decide⟩

end Hub

end Quiesce
