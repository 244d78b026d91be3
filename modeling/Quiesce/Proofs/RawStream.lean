import Mathlib.Data.List.Nodup
import Mathlib.Data.List.Perm.Basic
import Quiesce.Proofs.Transparency
/-!
# What a receiver of the stream gets

An action creates one *burst* at most: an event, and one more for each listener that drops it
(`burst_step`). The drops are created after the event and published before it, so the stream is the
journal with each burst turned over (`spreads_after`), and this is all the disorder that there is
(`Burst.inversions`). A receiver that has not lost anything is a place in the stream, and what it
was given and what waits for it make up the stream since it subscribed
(`Watch.received_append_waiting`).
-/

namespace Quiesce

/-- The events in the order of their numbers. -/
def Event.sorted (es : List Event) : List Event := es.mergeSort fun e e' => e.seq ≤ e'.seq

/-- An event, with the drops that came of emitting it. -/
structure Burst where
  event : Event
  drops : List Event
deriving DecidableEq, Repr

namespace Burst

/-- The events of a burst in the order in which they are created. -/
def created (b : Burst) : List Event := b.event :: b.drops

/-- The events of a burst in the order in which they are published. -/
def published (b : Burst) : List Event := b.drops ++ [b.event]

end Burst

/-- What happens while a receiver follows the stream: an action, or the receiver asks for the next
item. -/
inductive Watching
  | act (x : Action)
  | receive
deriving DecidableEq, Repr

def Watching.action? : Watching → Option Action
  | act x => some x
  | receive => none

def Receipt.event? : Receipt → Option Event
  | .event e => some e
  | .empty | .lagged _ => none

/-- A controller and a receiver of its stream, with all that the receiver was given. -/
structure Watch where
  controller : Controller
  receiver : Receiver
  receipts : List Receipt := []

namespace Watch

def step (s : Watch) : Watching → Watch
  | .act x => { s with controller := s.controller.step x }
  | .receive =>
    let (item, r) := s.controller.hub.bus.receive s.receiver
    { s with receiver := r, receipts := s.receipts ++ [item] }

def after (s : Watch) (history : List Watching) : Watch := history.foldl step s

/-- The events that the receiver was given, oldest first. -/
def received (s : Watch) : List Event := s.receipts.filterMap Receipt.event?

/-- The events that are published and that the receiver has not been given. -/
def waiting (s : Watch) : List Event :=
  s.controller.hub.bus.stream.toList.drop s.receiver.position

/-- The receiver has been told that it lost events. -/
def Lagged (s : Watch) : Prop := ∃ count, .lagged count ∈ s.receipts

end Watch

namespace Controller

/-- A new receiver of the stream. -/
def watch (c : Controller) : Watch := { controller := c, receiver := c.hub.bus.subscribe }

/-- The burst that an action creates, if it creates any event. -/
def burst? (c : Controller) (x : Action) : Option Burst :=
  match c.created (c.step x) with
  | [] => none
  | e :: drops => some ⟨e, drops⟩

/-- The bursts that are created in the course of a history. -/
def bursts (c : Controller) : List Action → List Burst
  | [] => []
  | x :: later => (c.burst? x).toList ++ (c.step x).bursts later

/-- The burst is of an event of the server, with one drop for each member that cannot queue it, in
the order of their admission; or of the panic of a listener, which no listener is told of. -/
def Causes (c : Controller) (b : Burst) : Prop :=
  b.event.kind.isSubscriberEvent = false ∧
    b.drops.map Event.toNotice = c.hub.workers.filterMap Worker.dropNotice? ∨
  b.event.kind = .subscriberPanicked ∧ b.drops = []

end Controller

/-! ## Bursts -/

theorem Controller.Causes.kind_of_mem_drops {c : Controller} {b : Burst} (causes : c.Causes b)
    {e : Event} (dropped : e ∈ b.drops) : e.kind = .subscriberOverflow := by
  rcases causes with ⟨-, notices⟩ | ⟨-, none⟩
  · have notice : e.toNotice ∈ b.drops.map Event.toNotice := List.mem_map_of_mem dropped
    rw [notices] at notice
    obtain ⟨w, -, drop⟩ := List.mem_filterMap.1 notice
    exact Worker.kind_of_dropNotice? drop
  · rw [none] at dropped
    cases dropped

section
variable {bs : List Burst} {es fs : List Event}

/-- Events from a list in which the numbers increase stand there as they do when they are sorted. -/
theorem Event.sorted_eq_filter (ordered : fs.Pairwise fun e e' => e.seq < e'.seq) (once : es.Nodup)
    (among : es ⊆ fs) : sorted es = fs.filter (· ∈ es) := by
  have distinct : (fs.map Event.seq).Nodup := List.pairwise_map.2 (ordered.imp Nat.ne_of_lt)
  have same : (sorted es).Perm (fs.filter (· ∈ es)) := by
    refine (List.mergeSort_perm es _).trans ?_
    refine (List.perm_ext_iff_of_nodup once ((List.Nodup.of_map _ distinct).filter _)).2 fun e => ?_
    simpa using fun member => among member
  have sorts : (sorted es).Pairwise fun e e' => e.seq ≤ e'.seq := by
    have trans : ∀ e e' e'' : Event, decide (e.seq ≤ e'.seq) = true →
        decide (e'.seq ≤ e''.seq) = true → decide (e.seq ≤ e''.seq) = true := by
      simpa using fun _ _ _ => Nat.le_trans
    have total : ∀ e e' : Event, (decide (e.seq ≤ e'.seq) || decide (e'.seq ≤ e.seq)) = true := by
      simpa using fun e e' => Nat.le_total _ _
    exact (List.pairwise_mergeSort trans total es).imp of_decide_eq_true
  refine same.eq_of_pairwise ?_ sorts ((ordered.imp Nat.le_of_lt).filter _)
  intro e e' member member' le le'
  have known := (List.mem_filter.1 (same.subset member)).1
  have known' := (List.mem_filter.1 member').1
  exact List.inj_on_of_nodup_map distinct known known' (Nat.le_antisymm le le')

theorem Burst.perm (bs : List Burst) :
    (bs.flatMap Burst.published).Perm (bs.flatMap Burst.created) :=
  List.Perm.flatMap_left bs fun _ _ => List.perm_append_comm

/-- Events published in bursts are out of order only if one of them is a drop and the other one the
event that was dropped. -/
theorem Burst.inversions
    (ordered : (bs.flatMap Burst.created).Pairwise fun e e' => e.seq < e'.seq) :
    (bs.flatMap Burst.published).Pairwise fun e e' =>
      e.seq < e'.seq ∨ ∃ b ∈ bs, e ∈ b.drops ∧ e' = b.event := by
  obtain ⟨within, across⟩ := List.pairwise_flatMap.1 ordered
  refine List.pairwise_flatMap.2 ⟨fun b member => ?_, across.imp fun before e he e' he' => ?_⟩
  · obtain ⟨-, drops⟩ := List.pairwise_cons.1 (within b member)
    refine List.pairwise_append.2 ⟨drops.imp .inl, List.pairwise_singleton _ _, ?_⟩
    intro e dropped e' last
    exact .inr ⟨b, member, dropped, List.mem_singleton.1 last⟩
  · have mem_created : ∀ {b : Burst} {f}, f ∈ b.published → f ∈ b.created :=
      fun member => List.perm_append_comm.mem_iff.1 member
    exact .inl (before e (mem_created he) e' (mem_created he'))

end

/-! ## One action -/

namespace Hub

variable {h h' h'' : Hub} {bs bs' : List Burst}

/-- From one hub to another these bursts are created and published. -/
structure Spreads (h h' : Hub) (bs : List Burst) : Prop where
  journal : h'.journal.toList = h.journal.toList ++ bs.flatMap Burst.created
  stream : h'.bus.stream.toList = h.bus.stream.toList ++ bs.flatMap Burst.published

theorem Spreads.trans (first : h.Spreads h' bs) (second : h'.Spreads h'' bs') :
    h.Spreads h'' (bs ++ bs') where
  journal := by rw [second.journal, first.journal, List.flatMap_append, List.append_assoc]
  stream := by rw [second.stream, first.stream, List.flatMap_append, List.append_assoc]

theorem Spreads.of_eq (journal : h'.journal = h.journal) (bus : h'.bus = h.bus) :
    h.Spreads h' [] := ⟨by simp [journal], by simp [bus]⟩

theorem spreads_publish (h : Hub) (n : Notice) : h.Spreads (h.publish n) [⟨h.next n, []⟩] where
  journal := Array.toList_push
  stream := Array.toList_push

theorem spreads_emit (h : Hub) (n : Notice) :
    ∃ drops, h.Spreads (h.emit n) [⟨h.next n, drops⟩] ∧
      drops.map Event.toNotice = h.workers.filterMap Worker.dropNotice? := by
  obtain ⟨drops, journal, stream, notices⟩ :=
    foldl_publish_grows (h.workers.filterMap Worker.dropNotice?) (h.offer n)
  refine ⟨drops, ⟨journal.trans ?_, ?_⟩, notices⟩
  · simp [offer, Burst.created]
  · rw [emit_eq, announce, Bus.publish, Array.toList_push, stream]
    simp [offer, Burst.published]

/-- Of what the listeners do the stream is told of panics only. -/
theorem spreads_stepListeners (h : Hub) (y : ListenerAction) :
    h.Spreads (h.stepListeners y) [] ∨
      ∃ e, h.Spreads (h.stepListeners y) [⟨e, []⟩] ∧ e.kind = .subscriberPanicked := by
  cases y with
  | panicked id p =>
    simp only [stepListeners, panicked]
    split
    · exact .inl (.of_eq rfl rfl)
    · next w _ =>
      split
      · have freed : h.Spreads (h.setWorker id { w with status := .idle }) [] := .of_eq rfl rfl
        exact .inr ⟨_, freed.trans (spreads_publish _ (.panicked w.listener.name p.info)), rfl⟩
      · exact .inl (.of_eq rfl rfl)
  | add | take | returned | die | exit =>
    refine .inl ?_
    simp only [stepListeners, add, take, returned, die, exit]
    repeat' split
    all_goals exact .of_eq rfl rfl
  | remove | close => exact .inl (.of_eq rfl rfl)

end Hub

namespace Controller

variable {c : Controller} {x : Action} {later : List Action} {b : Burst} {b? : Option Burst}

theorem burst?_of_spreads (spreads : c.hub.Spreads (c.step x).hub b?.toList) : c.burst? x = b? := by
  have grows := created_of_journal spreads.journal
  rw [burst?, grows]
  cases b? <;> simp [Burst.created]

theorem burst_step (c : Controller) (x : Action) :
    c.hub.Spreads (c.step x).hub (c.burst? x).toList ∧ ∀ b, c.burst? x = some b → c.Causes b := by
  -- It is enough to find some burst, since this is what the journal grows by.
  suffices found : ∃ b? : Option Burst, c.hub.Spreads (c.step x).hub b?.toList ∧
      ∀ b, b? = some b → c.Causes b by
    obtain ⟨b?, spreads, bursts⟩ := found
    rw [burst?_of_spreads spreads]
    exact ⟨spreads, bursts⟩
  cases own : x.ofServer with
  | true =>
    obtain ⟨n?, server, hub, -⟩ := step_eq_withHub (oblivious_step c own)
    rw [hub]
    cases n? with
    | none => exact ⟨none, .of_eq rfl rfl, fun b nothing => by cases nothing⟩
    | some n =>
      obtain ⟨drops, spreads, notices⟩ := c.hub.spreads_emit n
      refine ⟨some ⟨c.hub.next n, drops⟩, spreads, fun b own => ?_⟩
      cases own
      exact .inl ⟨server n rfl, notices⟩
  | false =>
    cases x with
    | listeners y =>
      rcases c.hub.spreads_stepListeners y with silent | ⟨e, spreads, panic⟩
      · exact ⟨none, silent, fun b nothing => by cases nothing⟩
      · refine ⟨some ⟨e, []⟩, spreads, fun b own => ?_⟩
        cases own
        exact .inr ⟨panic, rfl⟩
    | _ => cases own

/-! ## Histories -/

theorem spreads_after (c : Controller) (later : List Action) :
    c.hub.Spreads (c.after later).hub (c.bursts later) := by
  induction later generalizing c with
  | nil => exact .of_eq rfl rfl
  | cons x later ih => exact (burst_step c x).1.trans (ih (c.step x))

theorem exists_burst? (member : b ∈ c.bursts later) :
    ∃ before x rest, later = before ++ x :: rest ∧ (c.after before).burst? x = some b ∧
      (c.after before).Causes b := by
  induction later generalizing c with
  | nil => cases member
  | cons x later ih =>
    rcases List.mem_append.1 member with now | after
    · have now := Option.mem_toList.1 now
      exact ⟨[], x, later, rfl, now, (burst_step c x).2 b now⟩
    · obtain ⟨before, y, rest, rfl, created, bursts⟩ := ih after
      exact ⟨x :: before, y, rest, rfl, created, bursts⟩

theorem created_after (c : Controller) (later : List Action) :
    c.created (c.after later) = (c.bursts later).flatMap Burst.created :=
  created_of_journal (spreads_after c later).journal

theorem seq_created (recorded : c.hub.Recorded) (later : List Action) :
    (c.created (c.after later)).map Event.seq =
      List.range' c.hub.journal.size (c.created (c.after later)).length := by
  have grows := (spreads_after c later).journal
  rw [← created_after] at grows
  have size : (c.after later).hub.journal.size =
      c.hub.journal.size + (c.created (c.after later)).length := by
    simpa using congrArg List.length grows
  have before : c.hub.journal.toList.map Event.seq = _ := recorded.numbered
  have after : (c.after later).hub.journal.toList.map Event.seq = _ :=
    (recorded_after recorded later).numbered
  rw [grows, List.map_append, before, size, List.range_add] at after
  rw [List.append_cancel_left after, List.range'_eq_map_range]

end Controller

/-! ## A receiver -/

namespace Watch

variable {s : Watch} {base : List Event}

theorem controller_after (s : Watch) (history : List Watching) :
    (s.after history).controller = s.controller.after (history.filterMap Watching.action?) := by
  induction history generalizing s with
  | nil => rfl
  | cons x history ih =>
    cases x with
    | act y => exact ih (s.step (.act y))
    | receive => exact ih (s.step .receive)

theorem Lagged.step (lagged : s.Lagged) (x : Watching) : (s.step x).Lagged := by
  obtain ⟨count, told⟩ := lagged
  cases x with
  | act y => exact ⟨count, told⟩
  | receive => exact ⟨count, List.mem_append_left _ told⟩

/-- The receiver has not fallen out of the window. -/
def Kept (s : Watch) : Prop := s.controller.hub.bus.oldest ≤ s.receiver.position

/-- A receiver that was not too slow is given the first of the events that wait for it, if any. -/
theorem step_receive (kept : s.Kept) :
    s.step .receive = match s.waiting with
      | [] => { s with receipts := s.receipts ++ [.empty] }
      | e :: _ =>
        { s with
          receiver := ⟨s.receiver.position + 1⟩
          receipts := s.receipts ++ [.event e] } := by
  rw [step, Bus.receive, if_neg (Nat.not_lt.2 kept), ← Array.getElem?_toList, ← List.head?_drop,
    waiting]
  cases s.controller.hub.bus.stream.toList.drop s.receiver.position <;> rfl

theorem lagged_of_not_kept (behind : ¬ s.Kept) : (s.step .receive).Lagged := by
  refine ⟨s.controller.hub.bus.oldest - s.receiver.position, ?_⟩
  simp only [step, Bus.receive, if_pos (Nat.not_le.1 behind)]
  simp

/-- The receiver has passed what was there when it subscribed, and what it was given. -/
structure Follows (s : Watch) (base : List Event) : Prop where
  passed : s.controller.hub.bus.stream.toList.take s.receiver.position = base ++ s.received
  within : s.receiver.position ≤ s.controller.hub.bus.stream.toList.length

theorem Follows.step (follows : s.Follows base) (x : Watching) (unlagged : ¬ (s.step x).Lagged) :
    (s.step x).Follows base := by
  obtain ⟨passed, within⟩ := follows
  cases x with
  | act y =>
    have stream := (Controller.burst_step s.controller y).1.stream
    refine ⟨?_, ?_⟩
    · refine Eq.trans ?_ passed
      simp only [Watch.step, stream]
      exact List.take_append_of_le_length within
    · simp only [Watch.step, stream, List.length_append]
      exact Nat.le_add_right_of_le within
  | receive =>
    have kept : s.Kept := Classical.byContradiction fun behind =>
      unlagged (lagged_of_not_kept behind)
    rw [step_receive kept]
    cases first : s.waiting with
    | nil => exact ⟨passed.trans (by simp [received, Receipt.event?]), within⟩
    | cons e rest =>
      have here : s.controller.hub.bus.stream.toList[s.receiver.position]? = some e := by
        rw [← List.head?_drop]
        exact congrArg List.head? first
      refine ⟨?_, (List.getElem?_eq_some_iff.1 here).1⟩
      simp only [List.take_add_one, passed, here, received, List.filterMap_append]
      simp [Receipt.event?]

theorem Follows.after (follows : s.Follows base) (history : List Watching)
    (unlagged : ¬ (s.after history).Lagged) : (s.after history).Follows base := by
  induction history using List.reverseRecOn with
  | nil => exact follows
  | append_singleton history x ih =>
    rw [Watch.after, List.foldl_append] at unlagged ⊢
    exact (ih fun lagged => unlagged (lagged.step x)).step x unlagged

theorem follows_watch (c : Controller) : c.watch.Follows c.hub.bus.stream.toList where
  passed := by
    rw [Controller.watch, Bus.subscribe, ← Array.length_toList, List.take_length]
    exact (List.append_nil _).symm
  within := by simp [Controller.watch, Bus.subscribe]

theorem Follows.stream (follows : s.Follows base) :
    s.controller.hub.bus.stream.toList = base ++ (s.received ++ s.waiting) := by
  rw [← List.append_assoc, ← follows.passed, waiting, List.take_append_drop]

/-- What a receiver is given and what waits for it has been published in bursts. -/
theorem received_append_waiting (c : Controller) (history : List Watching)
    (unlagged : ¬ (c.watch.after history).Lagged) :
    (c.watch.after history).received ++ (c.watch.after history).waiting =
      (c.bursts (history.filterMap Watching.action?)).flatMap Burst.published := by
  have follows := (follows_watch c).after history unlagged
  have spreads := Controller.spreads_after c (history.filterMap Watching.action?)
  rw [show c.after _ = _ from (controller_after c.watch history).symm] at spreads
  exact List.append_cancel_left (follows.stream.symm.trans spreads.stream)

/-- A receiver that was not too slow catches up by asking as often as events wait for it. -/
theorem catches_up (kept : s.Kept) :
    let s' := s.after (List.replicate s.waiting.length .receive)
    s'.received = s.received ++ s.waiting ∧ s'.waiting = [] ∧ (s'.Lagged → s.Lagged) := by
  generalize waits : s.waiting = es
  induction es generalizing s with
  | nil => exact ⟨by simp [after], by simpa [after] using waits, fun lagged => lagged⟩
  | cons e es ih =>
    have next := step_receive kept
    rw [waits] at next
    have rest : (s.step .receive).waiting = es := by
      rw [next, waiting, ← List.tail_drop]
      exact congrArg List.tail waits
    have kept' : (s.step .receive).Kept := by
      rw [next]
      exact Nat.le_add_right_of_le kept
    obtain ⟨received, nothing, lagged⟩ := ih kept' rest
    refine ⟨received.trans ?_, nothing, fun lag => ?_⟩
    · rw [next]
      simp [Watch.received, Receipt.event?]
    · obtain ⟨count, told⟩ := lagged lag
      rw [next] at told
      exact ⟨count, by simpa using told⟩

end Watch

/-! ## The law -/

namespace Controller

/-- **A stream that is followed is complete, and only drops come early.** Let a receiver subscribe
after any history and ask for events at any times of a further one. The events that are created from
then on are numbered without gaps, and come in bursts: an event of the server and the drops that it
causes, in the order of the listeners, or the panic of a listener alone (1, 2). As long as the
receiver does not lag, what it was given and what waits for it are the same events, each of them
once, where the drops of each burst stand before its event; all others are in order, and so is
everything once it is sorted by number (3). A receiver that is not too slow is given what waits for
it when it asks (4). -/
theorem stream_complete (config : Config) (listeners : List Listener) (past : List Action)
    (history : List Watching) :
    let c := (create config listeners).after past
    let s := c.watch.after history
    let actions := history.filterMap Watching.action?
    let bursts := c.bursts actions
    let created := c.created s.controller
    let stream := s.received ++ s.waiting
    (s.controller = c.after actions ∧ created = bursts.flatMap Burst.created ∧
      created.map Event.seq = List.range' c.hub.journal.size created.length) ∧
    (∀ b ∈ bursts, ∃ before x rest, actions = before ++ x :: rest ∧
      (c.after before).burst? x = some b ∧ (c.after before).Causes b) ∧
    (¬ s.Lagged →
      stream = bursts.flatMap Burst.published ∧ stream.Perm created ∧
      (stream.filter (·.kind ≠ .subscriberOverflow)).Pairwise (fun e e' => e.seq < e'.seq) ∧
      stream.Pairwise (fun e e' =>
        e.seq < e'.seq ∨ ∃ b ∈ bursts, e ∈ b.drops ∧ e' = b.event) ∧
      Event.sorted stream = created ∧
      Event.sorted s.received = created.filter (· ∈ s.received)) ∧
    (s.Kept →
      let s' := s.after (List.replicate s.waiting.length .receive)
      s'.received = stream ∧ s'.waiting = [] ∧ (s'.Lagged → s.Lagged)) := by
  intro c s actions bursts created stream
  have controller : s.controller = c.after actions := Watch.controller_after c.watch history
  have created_eq : created = bursts.flatMap Burst.created := by
    simp only [created, controller]
    exact created_after c actions
  have recorded : c.hub.Recorded := recorded_after (Hub.recorded_create _ _ listeners) past
  have numbered : created.map Event.seq = List.range' c.hub.journal.size created.length := by
    simp only [created, controller]
    exact seq_created recorded actions
  have increasing : created.Pairwise fun e e' => e.seq < e'.seq := by
    rw [← List.pairwise_map (f := Event.seq), numbered]
    exact List.pairwise_lt_range'
  refine ⟨⟨controller, created_eq, numbered⟩, fun b => exists_burst?, fun unlagged => ?_,
    Watch.catches_up⟩
  have turned : stream = bursts.flatMap Burst.published :=
    Watch.received_append_waiting c history unlagged
  have same : stream.Perm created := by
    rw [turned, created_eq]
    exact Burst.perm bursts
  have inversions : stream.Pairwise fun e e' =>
      e.seq < e'.seq ∨ ∃ b ∈ bursts, e ∈ b.drops ∧ e' = b.event := by
    rw [turned]
    exact Burst.inversions (created_eq ▸ increasing)
  have once : stream.Nodup := same.nodup_iff.2 (increasing.imp fun lt eq => by simp [eq] at lt)
  refine ⟨turned, same, ?_, inversions, ?_, ?_⟩
  · -- Only a drop stands before an event with a lower number.
    refine List.pairwise_filter.2 (inversions.imp fun {e e'} order first _ => ?_)
    refine order.resolve_right ?_
    rintro ⟨b, member, dropped, -⟩
    obtain ⟨before, x, rest, -, -, burst⟩ := exists_burst? member
    simp [burst.kind_of_mem_drops dropped] at first
  · rw [Event.sorted_eq_filter increasing once same.subset]
    exact List.filter_eq_self.2 fun e member => decide_eq_true (same.symm.subset member)
  · refine Event.sorted_eq_filter increasing (once.sublist (List.sublist_append_left _ _)) ?_
    exact fun e given => same.subset (List.mem_append_left _ given)

/-- Two listeners with a full queue each drop an event; then one of them panics. -/
theorem stream_complete_full :
    let l : Listener := { key := "l", name := "l", capacity := 1 }
    let m : Listener := { key := "m", name := "m", capacity := 1 }
    let history : List Watching := [.act (.resume {}), .receive, .receive, .receive, .receive,
      .act (.listeners (.take 0)), .act (.listeners (.panicked 0 .nonText))]
    let c := (create {} [l, m]).after [.resume {}]
    let s := c.watch.after history
    ¬ s.Lagged ∧ s.Kept ∧
    s.received.map (fun e => (e.seq, e.kind, e.activity)) =
      [(2, .subscriberOverflow, some "l"), (3, .subscriberOverflow, some "m"),
        (1, .suspendCancelled, none)] ∧
    s.waiting.map (fun e => (e.seq, e.kind)) = [(4, .subscriberPanicked)] ∧
    Event.sorted (s.received ++ s.waiting) = c.created s.controller ∧
    (s.after [.receive]).received = s.received ++ s.waiting := by
  intro l m history c s
  obtain ⟨-, -, complete, asks⟩ := stream_complete {} [l, m] [.resume {}] history
  have unlagged : ¬ s.Lagged := by
    have items : ∀ item ∈ s.receipts, item = .empty ∨ item.event? ≠ none := by decide +kernel
    rintro ⟨count, told⟩
    rcases items _ told with empty | given
    · cases empty
    · exact given rfl
  have kept : s.Kept := by
    have within : s.controller.hub.bus.oldest ≤ s.receiver.position := by decide +kernel
    exact within
  have one : s.waiting.length = 1 := by decide +kernel
  have caughtUp := (asks kept).1
  rw [show s.waiting.length = 1 from one] at caughtUp
  obtain ⟨-, -, -, -, sorted, -⟩ := complete unlagged
  exact ⟨unlagged, kept, by decide +kernel, by decide +kernel, sorted, caughtUp⟩

end Controller

end Quiesce
