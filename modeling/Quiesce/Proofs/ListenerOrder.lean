import Quiesce.Proofs.ListenerAccount
/-!
# The order in which a listener hears events

The events of one membership come through the queue of one worker, which begins with them in the
order of their numbers, one at a time. But a worker outlives its membership as long as events are
left, and the listener may be admitted again meanwhile: the new worker does not wait for its
`Predecessor`, and then both call the listener. A predecessor accepts nothing more, so all that it
can still do is what it had to do when the new worker came (`Dwindled`). Hence a listener hears an
event late, or two at a time, only from a predecessor that had something left (`heard_in_order`). It
does happen (`heard_out_of_order`).
-/

namespace Quiesce

namespace Worker

variable {v w : Worker} {e : Event}

/-- What a worker has still to do: the event in hand, and those queued. -/
def pending (w : Worker) : List Event :=
  match w.status with
  | .handling e => e :: w.queue
  | .idle | .dead | .exited => w.queue

theorem queue_subset_pending (w : Worker) : w.queue ⊆ w.pending := by
  unfold pending
  split
  · exact List.subset_cons_self _ _
  · exact List.Subset.refl _
  · exact List.Subset.refl _
  · exact List.Subset.refl _

theorem mem_pending_of_handling (handling : w.status = .handling e) : e ∈ w.pending := by
  rw [pending, handling]
  exact List.mem_cons_self

/-- The worker `w` has nothing to do that `v` had not. -/
structure Dwindled (v w : Worker) : Prop where
  queue : w.queue ⊆ v.queue
  pending : w.pending ⊆ v.pending

theorem Dwindled.refl (w : Worker) : w.Dwindled w :=
  ⟨List.Subset.refl _, List.Subset.refl _⟩

theorem Dwindled.trans {u : Worker} (h : u.Dwindled v) (h' : v.Dwindled w) : u.Dwindled w :=
  ⟨List.Subset.trans h'.queue h.queue, List.Subset.trans h'.pending h.pending⟩

end Worker

namespace Hub

variable {h h₀ : Hub} {x : HubAction} {i j id : Nat} {v v' w w' : Worker} {e : Event}
  {es : List Event} {l : Listener} {past : List HubAction} {d d' : Delivery}

/-- The events that a worker has accepted and not lost: those its listener began to handle, and
those that are queued. -/
def trail (h : Hub) (id : Nat) (w : Worker) : List Event := h.begun id ++ w.queue

def listener? (h : Hub) (id : Nat) : Option Listener := h.workers[id]?.map Worker.listener

/-- What a listener has begun to handle, in the order of beginning. -/
def heard (h : Hub) (l : Listener) : List Delivery :=
  h.deliveries.toList.filter fun d => h.listener? d.worker = some l

/-- Worker `id` is calling the listener with this event. -/
def Handles (h : Hub) (l : Listener) (id : Nat) (e : Event) : Prop :=
  ∃ w, h.workers[id]? = some w ∧ w.listener = l ∧ w.status = .handling e

/-- When the listener was admitted and given worker `j`, the worker `i` of a former membership was
as `w` says. -/
def Predecessor (h : Hub) (past : List HubAction) (l : Listener) (i j : Nat) (w : Worker) : Prop :=
  ∃ before rest, past = before ++ .listeners (.add l) :: rest ∧
    (h.after before).contains l = false ∧ (h.after before).workers.length = j ∧
    (h.after before).workers[i]? = some w ∧ w.listener = l

theorem Predecessor.concat (p : h.Predecessor past l i j w) (x : HubAction) :
    h.Predecessor (past ++ [x]) l i j w := by
  obtain ⟨before, rest, rfl, known⟩ := p
  exact ⟨before, rest ++ [x], by simp, known⟩

theorem Predecessor.mem_workers (p : h.Predecessor past l i j w) :
    ∃ k < past.length, past[k]? = some (.listeners (.add l)) ∧
      w ∈ (h.after (past.take k)).workers := by
  obtain ⟨before, rest, rfl, -, -, worker, -⟩ := p
  refine ⟨before.length, by simp, by simp, ?_⟩
  rw [List.take_left]
  exact List.mem_of_getElem? worker

/-! ## One worker -/

theorem WorkerStep.dwindled (s : h.WorkerStep id w x w' es) (detached : w.attached = false) :
    w.Dwindled w' := by
  cases s with
  | stayed => exact .refl w
  | accepted x e offered attached room =>
    rw [detached] at attached
    cases attached
  | took e rest free queue =>
    refine ⟨?_, ?_⟩
    · rw [queue]
      exact List.subset_cons_self e rest
    · simp [Worker.pending, free, queue]
  | finished x e handling own => exact ⟨List.Subset.refl _, w.queue_subset_pending⟩
  | died e handling => exact ⟨List.nil_subset _, List.nil_subset _⟩
  | exited => exact ⟨List.Subset.refl _, w.queue_subset_pending⟩
  | detached => exact ⟨List.Subset.refl _, List.Subset.refl _⟩

/-- The trail of a worker grows by an event that is offered to a member, and not otherwise. -/
theorem WorkerStep.trail (s : h.WorkerStep id w x w' es)
    (begun : (h.step x).begun id = h.begun id ++ es) :
    ((h.step x).trail id w').Sublist (h.trail id w) ∨
      ∃ e, h.offered? x = some e ∧ w.attached = true ∧
        (h.step x).trail id w' = h.trail id w ++ [e] := by
  have trail_eq : (h.step x).trail id w' = h.begun id ++ (es ++ w'.queue) := by
    rw [Hub.trail, begun, List.append_assoc]
  rw [trail_eq, Hub.trail]
  cases s with
  | accepted x e offered attached room => exact .inr ⟨e, offered, attached, by simp⟩
  | took e rest free queue =>
    rw [queue]
    exact .inl (List.Sublist.refl _)
  | died e handling => exact .inl ((List.nil_sublist _).append_left _)
  | stayed | finished | exited | detached => exact .inl (List.Sublist.refl _)

theorem worker_origin (worker' : (h.step x).workers[id]? = some w') :
    (∃ w es, h.workers[id]? = some w ∧ (h.step x).begun id = h.begun id ++ es ∧
      h.WorkerStep id w x w' es) ∨
    ∃ l, x = .listeners (.add l) ∧ h.contains l = false ∧ id = h.workers.length ∧
      w' = Worker.create l h.queueOverride? := by
  by_cases old : id < h.workers.length
  · have worker : h.workers[id]? = some h.workers[id] := List.getElem?_eq_getElem old
    obtain ⟨w₁, es, worker₁, begun, s⟩ := worker_step h x worker
    obtain rfl : w₁ = w' := Option.some.inj (worker₁.symm.trans worker')
    exact .inl ⟨_, es, worker, begun, s⟩
  · exact .inr (worker_of_step (Nat.le_of_not_lt old) worker')

theorem detached_of_contains (absent : h.contains l = false) (worker : h.workers[id]? = some w)
    (own : w.listener = l) : w.attached = false := by
  cases attached : w.attached with
  | false => rfl
  | true =>
    have member : h.contains l = true :=
      List.any_eq_true.2 ⟨w, List.mem_of_getElem? worker, by simp [attached, own]⟩
    rw [absent] at member
    cases member

/-! ## Two workers of one listener -/

/-- The workers `i` and `j` belong to one listener, and `j` came later. -/
structure Successive (h : Hub) (i j : Nat) (v w : Worker) : Prop where
  lt : i < j
  first : h.workers[i]? = some v
  second : h.workers[j]? = some w
  own : v.listener = w.listener

theorem Successive.origin (s : (h.step x).Successive i j v' w') :
    ∃ v es, h.workers[i]? = some v ∧ (h.step x).begun i = h.begun i ++ es ∧
      h.WorkerStep i v x v' es ∧
      ((∃ w es', h.Successive i j v w ∧ (h.step x).begun j = h.begun j ++ es' ∧
        h.WorkerStep j w x w' es') ∨
      (x = .listeners (.add v.listener) ∧ h.contains v.listener = false ∧ j = h.workers.length ∧
        w' = Worker.create v.listener h.queueOverride?)) := by
  obtain ⟨lt, first, second, own⟩ := s
  rcases worker_origin second with ⟨w, es', worker, begun', s'⟩ | ⟨l, rfl, absent, rfl, rfl⟩
  all_goals rcases worker_origin first with ⟨v, es, worker₀, begun, s⟩ | ⟨l', -, -, rfl, rfl⟩
  · have own₀ : v.listener = w.listener := s.listener.symm.trans (own.trans s'.listener)
    exact ⟨v, es, worker₀, begun, s, .inl ⟨w, es', ⟨lt, worker₀, worker, own₀⟩, begun', s'⟩⟩
  · exact absurd (List.getElem?_eq_some_iff.1 worker).1 (by omega)
  · have own₀ : v.listener = l := s.listener.symm.trans own
    subst own₀
    exact ⟨v, es, worker₀, begun, s, .inr ⟨rfl, absent, rfl, rfl⟩⟩
  · exact absurd lt (Nat.lt_irrefl _)

/-- Each worker's trail is in order. Of two workers of one listener the first has left, and its
trail is older. -/
structure InOrder (h : Hub) : Prop where
  sorted : ∀ {id w}, h.workers[id]? = some w → (h.trail id w).Pairwise fun e f => e.seq < f.seq
  known : ∀ {id w}, h.workers[id]? = some w → ∀ e ∈ h.trail id w, e.seq < h.journal.size
  former : ∀ {i j v w}, h.Successive i j v w → v.attached = false
  apart : ∀ {i j v w}, h.Successive i j v w →
    ∀ e ∈ h.trail i v, ∀ f ∈ h.trail j w, e.seq < f.seq

theorem trail_create (nothing : h.begun h.workers.length = []) (l l' : Listener)
    (queueOverride? : Option Nat) :
    (h.step (.listeners (.add l))).trail h.workers.length
      (Worker.create l' queueOverride?) = [] := by
  have same : (h.step (.listeners (.add l))).deliveries = h.deliveries := by
    simp only [step, stepListeners, add]
    split <;> rfl
  rw [trail, begun_of_deliveries same, nothing]
  rfl

theorem WorkerStep.trail_of_detached (s : h.WorkerStep id w x w' es)
    (begun : (h.step x).begun id = h.begun id ++ es) (detached : w.attached = false) :
    ((h.step x).trail id w').Sublist (h.trail id w) := by
  rcases s.trail begun with part | ⟨e, -, attached, -⟩
  · exact part
  · rw [detached] at attached
    cases attached

theorem InOrder.step (inOrder : h.InOrder) (nothing : h.begun h.workers.length = [])
    (x : HubAction) : (h.step x).InOrder where
  sorted {id w'} worker' := by
    rcases worker_origin worker' with ⟨w, es, worker, begun, s⟩ | ⟨l, rfl, -, rfl, rfl⟩
    · rcases s.trail begun with part | ⟨e, offered, -, grown⟩
      · exact (inOrder.sorted worker).sublist part
      · rw [grown, List.pairwise_append]
        refine ⟨inOrder.sorted worker, List.pairwise_singleton _ _, fun f there g young => ?_⟩
        rw [List.mem_singleton.1 young, seq_of_offered? offered]
        exact inOrder.known worker f there
    · rw [trail_create nothing]
      exact .nil
  known {id w'} worker' f there := by
    rcases worker_origin worker' with ⟨w, es, worker, begun, s⟩ | ⟨l, rfl, -, rfl, rfl⟩
    · have kept : ∀ g ∈ h.trail id w, g.seq < (h.step x).journal.size := fun g old =>
        Nat.lt_of_lt_of_le (inOrder.known worker g old) (size_journal_le_step h x)
      rcases s.trail begun with part | ⟨e, offered, -, grown⟩
      · exact kept f (part.subset there)
      · rw [grown, List.mem_append, List.mem_singleton] at there
        rcases there with old | rfl
        · exact kept f old
        · exact seq_of_offered? offered ▸ size_journal_lt_step offered
    · rw [trail_create nothing] at there
      cases there
  former {i j v' w'} pair := by
    obtain ⟨v, es, worker, -, s, ⟨w, es', pair₀, -, -⟩ | ⟨rfl, absent, -, -⟩⟩ := pair.origin
    · rw [s.attached, inOrder.former pair₀]
      rfl
    · rw [s.attached, detached_of_contains absent worker rfl]
      rfl
  apart {i j v' w'} pair e older f younger := by
    obtain ⟨v, es, worker, begun, s, ⟨w, es', pair₀, begun', s'⟩ | ⟨rfl, -, rfl, rfl⟩⟩ :=
      pair.origin
    · -- The first worker has left: only the second can have got an event, the youngest of all.
      have old := (s.trail_of_detached begun (inOrder.former pair₀)).subset older
      rcases s'.trail begun' with part | ⟨g, offered, -, grown⟩
      · exact inOrder.apart pair₀ e old f (part.subset younger)
      · rw [grown, List.mem_append, List.mem_singleton] at younger
        rcases younger with there | rfl
        · exact inOrder.apart pair₀ e old f there
        · rw [seq_of_offered? offered]
          exact inOrder.known worker e old
    · rw [trail_create nothing] at younger
      cases younger

theorem inOrder_after (busCapacity : Nat) (queueOverride? : Option Nat) (past : List HubAction) :
    ((create busCapacity queueOverride? []).after past).InOrder := by
  induction past using List.reverseRecOn with
  | nil =>
    have none : ∀ (id : Nat) {w : Worker},
        ((create busCapacity queueOverride? []).after []).workers[id]? ≠ some w := by
      intro id w worker
      cases worker
    exact ⟨fun worker => absurd worker (none _), fun worker => absurd worker (none _),
      fun pair => absurd pair.first (none _), fun pair => absurd pair.first (none _)⟩
  | append_singleton past x ih =>
    rw [after_concat]
    exact ih.step (begun_of_length_le (Nat.le_refl _)) x

/-- Of a former worker no more is left than there was when its successor came. -/
theorem dwindled_after (h : Hub) (empty : h.workers = []) (past : List HubAction)
    (pair : (h.after past).Successive i j v w) :
    v.attached = false ∧ ∃ u, h.Predecessor past v.listener i j u ∧ u.Dwindled v := by
  induction past using List.reverseRecOn generalizing v w with
  | nil =>
    have first := pair.first
    rw [after_nil, empty] at first
    cases first
  | append_singleton past x ih =>
    rw [after_concat] at pair
    obtain ⟨v₀, es, worker, -, s, ⟨w₀, es', pair₀, -, -⟩ | ⟨rfl, absent, rfl, -⟩⟩ := pair.origin
    · obtain ⟨left, u, before, dwindled⟩ := ih pair₀
      rw [s.attached, s.listener, left]
      exact ⟨rfl, u, before.concat x, dwindled.trans (s.dwindled left)⟩
    · -- The successor comes with this very action.
      have left := detached_of_contains absent worker rfl
      rw [s.attached, s.listener, left]
      exact ⟨rfl, v₀, ⟨past, [], rfl, absent, rfl, worker, rfl⟩, s.dwindled left⟩

/-! ## The order of hearing -/

/-- The delivery `d'` comes after `d`: in order, unless a predecessor makes it of what was left in
its queue. -/
def Follows (h : Hub) (past : List HubAction) (l : Listener) (d d' : Delivery) : Prop :=
  d.worker ≤ d'.worker ∧ d.event.seq < d'.event.seq ∨
  d'.worker < d.worker ∧ d'.event.seq < d.event.seq ∧
    ∃ w, h.Predecessor past l d'.worker d.worker w ∧ d'.event ∈ w.queue

theorem Follows.concat (f : h.Follows past l d d') (x : HubAction) :
    h.Follows (past ++ [x]) l d d' := by
  rcases f with inOrder | ⟨lt, late, w, before, left⟩
  · exact .inl inOrder
  · exact .inr ⟨lt, late, w, before.concat x, left⟩

theorem mem_begun (made : d ∈ h.deliveries.toList) : d.event ∈ h.begun d.worker :=
  List.mem_map_of_mem (List.mem_filter.2 ⟨made, by simp⟩)

theorem listener?_step (worker : id < h.workers.length) (x : HubAction) :
    (h.step x).listener? id = h.listener? id := by
  have there : h.workers[id]? = some h.workers[id] := List.getElem?_eq_getElem worker
  obtain ⟨w', es, worker', -, s⟩ := worker_step h x there
  rw [listener?, listener?, worker', there, Option.map_some, Option.map_some, s.listener]

theorem listener?_eq_some_iff :
    h.listener? id = some l ↔ ∃ w, h.workers[id]? = some w ∧ w.listener = l :=
  Option.map_eq_some_iff

/-- A delivery from a worker's queue follows all that the listener has heard. -/
theorem follows_of_queue {past : List HubAction} (empty : h₀.workers = [])
    (inOrder : (h₀.after past).InOrder) (worker : (h₀.after past).workers[d'.worker]? = some w)
    (queued : d'.event ∈ w.queue) (made : d ∈ (h₀.after past).deliveries.toList)
    (own : (h₀.after past).listener? d.worker = some w.listener) :
    h₀.Follows past w.listener d d' := by
  obtain ⟨u, worker₁, same⟩ := listener?_eq_some_iff.1 own
  have heard : d.event ∈ (h₀.after past).trail d.worker u :=
    List.mem_append_left _ (mem_begun made)
  have waiting : d'.event ∈ (h₀.after past).trail d'.worker w := List.mem_append_right _ queued
  rcases Nat.lt_trichotomy d.worker d'.worker with lt | eq | gt
  · exact .inl ⟨Nat.le_of_lt lt, inOrder.apart ⟨lt, worker₁, worker, same⟩ _ heard _ waiting⟩
  · refine .inl ⟨Nat.le_of_eq eq, ?_⟩
    have sorted := inOrder.sorted worker
    rw [trail, List.pairwise_append] at sorted
    exact sorted.2.2 _ (eq ▸ mem_begun made) _ queued
  · have pair : (h₀.after past).Successive d'.worker d.worker w u :=
      ⟨gt, worker, worker₁, same.symm⟩
    obtain ⟨-, v, before, dwindled⟩ := dwindled_after h₀ empty past pair
    exact .inr ⟨gt, inOrder.apart pair _ waiting _ heard, v, before, dwindled.queue queued⟩

/-- Each delivery follows those that the listener was given before. -/
theorem follows_after (busCapacity : Nat) (queueOverride? : Option Nat) (past : List HubAction) :
    ((create busCapacity queueOverride? []).after past).deliveries.toList.Pairwise fun d d' =>
      ∀ l, ((create busCapacity queueOverride? []).after past).listener? d.worker = some l →
        ((create busCapacity queueOverride? []).after past).listener? d'.worker = some l →
        (create busCapacity queueOverride? []).Follows past l d d' := by
  induction past using List.reverseRecOn with
  | nil => exact .nil
  | append_singleton past x ih =>
    have inOrder := inOrder_after busCapacity queueOverride? past
    have known := worker_of_delivery busCapacity queueOverride? past
    have empty : (create busCapacity queueOverride? []).workers = [] := rfl
    rw [after_concat]
    generalize create busCapacity queueOverride? [] = h₀ at *
    have old : (h₀.after past).deliveries.toList.Pairwise fun d d' =>
        ∀ l, ((h₀.after past).step x).listener? d.worker = some l →
          ((h₀.after past).step x).listener? d'.worker = some l →
          h₀.Follows (past ++ [x]) l d d' := by
      refine ih.imp_of_mem fun {d d'} made made' follows l own own' => ?_
      rw [listener?_step (known d made)] at own
      rw [listener?_step (known d' made')] at own'
      exact (follows l own own').concat x
    rcases deliveries_step (h₀.after past) x with same | ⟨d', w, worker, queued, push⟩
    · rw [same]
      exact old
    · -- The new delivery is compared with all the earlier ones.
      rw [push, Array.toList_push, List.pairwise_append]
      refine ⟨old, List.pairwise_singleton _ _, fun d made d'' last l own own' => ?_⟩
      obtain rfl := List.mem_singleton.1 last
      rw [listener?_step (known d made)] at own
      rw [listener?_step (List.getElem?_eq_some_iff.1 worker).1, listener?, worker,
        Option.map_some, Option.some.injEq] at own'
      subst own'
      exact (follows_of_queue empty inOrder worker queued made own).concat x

/-- **A listener hears events in order, but for what its predecessors left.** In any history each of
its events is younger than those it heard before, unless it was queued for a predecessor when the
worker of one of them came (1); and a listener is called by two workers at a time only if the older
one had this call ahead of it, or under way, when the younger one came (2). So a listener that was
never admitted again before its former workers were done hears everything in order, and one event
at a time (3). -/
theorem heard_in_order (busCapacity : Nat) (queueOverride? : Option Nat) (listeners : List Listener)
    (history : List HubAction) (l : Listener) :
    let h₀ := create busCapacity queueOverride? []
    let past := listeners.map (.listeners <| .add ·) ++ history
    let h := (create busCapacity queueOverride? listeners).after history
    (h.heard l).Pairwise (h₀.Follows past l) ∧
    (∀ i j e f, i < j → h.Handles l i e → h.Handles l j f →
      ∃ w, h₀.Predecessor past l i j w ∧ e ∈ w.pending) ∧
    ((∀ i j w, h₀.Predecessor past l i j w → w.pending = []) →
      (h.heard l).Pairwise (fun d d' => d.event.seq < d'.event.seq) ∧
      ∀ i j e f, h.Handles l i e → h.Handles l j f → i = j) := by
  intro h₀ past h
  have now_eq : h = h₀.after past := by
    simp only [h, h₀, past]
    rw [create_eq_after, ← after_append]
  have follows : (h.heard l).Pairwise (h₀.Follows past l) := by
    rw [heard, List.pairwise_filter, now_eq]
    refine (follows_after busCapacity queueOverride? past).imp fun follows own own' => ?_
    exact follows l (of_decide_eq_true own) (of_decide_eq_true own')
  have both : ∀ i j e f, i < j → h.Handles l i e → h.Handles l j f →
      ∃ w, h₀.Predecessor past l i j w ∧ e ∈ w.pending := by
    rintro i j e f lt ⟨v, first, rfl, handling⟩ ⟨w, second, own, -⟩
    rw [now_eq] at first second
    obtain ⟨-, u, before, dwindled⟩ := dwindled_after h₀ rfl past ⟨lt, first, second, own.symm⟩
    exact ⟨u, before, dwindled.pending (Worker.mem_pending_of_handling handling)⟩
  refine ⟨follows, both, fun done => ⟨follows.imp fun {d d'} follows => ?_, ?_⟩⟩
  · rcases follows with ⟨-, lt⟩ | ⟨-, -, w, before, left⟩
    · exact lt
    · have pending := w.queue_subset_pending left
      rw [done _ _ w before] at pending
      cases pending
  · intro i j e f first second
    have alone : ∀ {i j e f}, h.Handles l i e → h.Handles l j f → ¬ i < j := by
      intro i j e f first second lt
      obtain ⟨w, before, pending⟩ := both i j e f lt first second
      rw [done i j w before] at pending
      cases pending
    exact Nat.le_antisymm (Nat.le_of_not_lt (alone second first))
      (Nat.le_of_not_lt (alone first second))

/-- A listener is admitted again when its former worker has done all it had to do. -/
theorem heard_in_order_drained :
    let l : Listener := { key := "l", name := "l" }
    let n : Notice := .suspendStarted
    let past : List HubAction :=
      [.listeners (.add l), .emit n, .listeners (.take 0), .listeners (.returned 0),
        .listeners (.remove l), .listeners (.add l), .emit n, .listeners (.take 1)]
    let h := (create 16 none []).after past
    (∀ i j w, (create 16 none []).Predecessor past l i j w → w.pending = []) ∧
    (h.heard l).map Delivery.worker = [0, 1] ∧
    (h.heard l).Pairwise (fun d d' => d.event.seq < d'.event.seq) := by
  intro l n past h
  have drained : ∀ k < past.length, past[k]? = some (.listeners (.add l)) →
      ∀ w ∈ ((create 16 none []).after (past.take k)).workers, w.pending = [] := by decide
  have done : ∀ i j w, (create 16 none []).Predecessor past l i j w → w.pending = [] := by
    intro i j w predecessor
    obtain ⟨k, lt, admits, member⟩ := predecessor.mem_workers
    exact drained k lt admits w member
  obtain ⟨-, -, inOrder⟩ := heard_in_order 16 none [] past l
  exact ⟨done, by decide, (inOrder done).1⟩

/-- A listener leaves while it handles the first event and the second is queued, and is admitted
again at once. It is called with the third event beside the first, and hears the second one last. -/
theorem heard_out_of_order :
    let l : Listener := { key := "l", name := "l" }
    let n : Notice := .suspendStarted
    let history : List HubAction :=
      [.listeners (.add l), .emit n, .emit n, .listeners (.take 0), .listeners (.remove l),
        .listeners (.add l), .emit n, .listeners (.take 1)]
    let h := (create 16 none []).after history
    let h' := h.after [.listeners (.returned 0), .listeners (.take 0)]
    (h.Handles l 0 ⟨n, 0⟩ ∧ h.Handles l 1 ⟨n, 2⟩) ∧
    (h'.heard l).map (·.event.seq) = [0, 2, 1] ∧
    ¬ (h'.heard l).Pairwise fun d d' => d.event.seq < d'.event.seq := by
  intro l n history h h'
  have former : h.workers[0]? = some ⟨l, 1024, false, [⟨n, 1⟩], .handling ⟨n, 0⟩⟩ := by decide
  have present : h.workers[1]? = some ⟨l, 1024, true, [], .handling ⟨n, 2⟩⟩ := by decide
  exact ⟨⟨⟨_, former, rfl, rfl⟩, ⟨_, present, rfl, rfl⟩⟩, by decide, by decide⟩

end Hub

end Quiesce
