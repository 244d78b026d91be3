import Quiesce.Proofs.Emissions
import Quiesce.Proofs.LogRecord
import Quiesce.Proofs.RawStream
/-!
# The transcript of a log writer

A log writer is a listener that writes one record for each event that it begins to handle. Every
event that there ever is says what its kind calls for (`complete_after`), so each is recovered from
its record, and the records of a membership are a transcript of what was emitted in its course
(`trail_eq_emitted`).

A log writer that is admitted again writes on. Its former and its present workers write and keep
queued, all together, what was emitted while it was a member, each event once (`perm_emittedWhile`),
and they do so in order as long as nothing was queued for the former ones when the latter came
(`eq_emittedWhile`). No transcript has anything about the listeners themselves, since only the bus
is told of them (`log_unfaithful`).
-/

namespace Quiesce

theorem Worker.complete_of_dropNotice? {w : Worker} {n : Notice} (drop : w.dropNotice? = some n) :
    n.Complete := by
  unfold dropNotice? at drop
  split at drop
  · obtain ⟨reason, -, rfl⟩ := Option.map_eq_some_iff.1 drop
    exact Notice.complete_overflow _ _
  · cases drop

namespace Hub

variable {h : Hub} {n : Notice} {id : Nat} {w : Worker} {e : Event} {l : Listener} {d d' : Delivery}
  {past : List HubAction} {busCapacity : Nat} {queueOverride? : Option Nat}

/-! ## Complete events -/

/-- Every event says what its kind calls for, and no more. -/
def Complete (h : Hub) : Prop := ∀ e ∈ h.journal.toList, e.Complete

theorem Complete.of_journal {h' : Hub} (complete : h.Complete) (es : List Event)
    (journal : h'.journal.toList = h.journal.toList ++ es) (new : ∀ e ∈ es, e.Complete) :
    h'.Complete := by
  intro e member
  rw [journal, List.mem_append] at member
  exact member.elim (complete e) (new e)

theorem Complete.emit (complete : h.Complete) (told : n.Complete) : (h.emit n).Complete := by
  obtain ⟨drops, spreads, notices⟩ := spreads_emit h n
  refine complete.of_journal _ spreads.journal fun e new => ?_
  rw [List.flatMap_singleton, Burst.created, List.mem_cons] at new
  rcases new with rfl | dropped
  · exact told
  · have notice : e.toNotice ∈ h.workers.filterMap Worker.dropNotice? :=
      notices ▸ List.mem_map_of_mem dropped
    obtain ⟨w, -, drop⟩ := List.mem_filterMap.1 notice
    exact Worker.complete_of_dropNotice? drop

theorem Complete.stepListeners (complete : h.Complete) (y : ListenerAction) :
    (h.stepListeners y).Complete := by
  rcases journal_stepListeners h y with same | ⟨name, info, journal⟩
  · exact complete.of_journal [] (by simp [same]) (by simp)
  · refine complete.of_journal [h.next (.panicked name info)] (by simp [journal])
      fun e new => ?_
    rw [List.mem_singleton.1 new]
    exact Notice.complete_panicked name info

/-! ## Records -/

/-- What the listener of worker `id` has written, if it writes a record for each event that it
begins to handle. -/
def written (h : Hub) (id : Nat) : List LogRecord := (h.begun id).map LogRecord.ofEvent

/-- What a listener has written, in the order of writing, if it writes a record for each event that
it begins to handle. -/
def records (h : Hub) (l : Listener) : List LogRecord := (h.heard l).map fun d => .ofEvent d.event

def queued (h : Hub) (id : Nat) : List Delivery :=
  (h.workers[id]?).elim [] fun w => w.queue.map (Delivery.mk id)

/-- The deliveries that a listener has still to expect, those from its oldest worker first. -/
def ahead (h : Hub) (l : Listener) : List Delivery :=
  ((List.range h.workers.length).filter fun id => h.listener? id = some l).flatMap h.queued

theorem mem_queued :
    d ∈ h.queued id ↔ d.worker = id ∧ ∃ w, h.workers[id]? = some w ∧ d.event ∈ w.queue := by
  obtain ⟨worker, e⟩ := d
  cases there : h.workers[id]? with
  | none => simp [queued, there]
  | some w => simp [queued, there, and_comm, eq_comm]

theorem mem_heard : d ∈ h.heard l ↔ d ∈ h.deliveries.toList ∧ h.listener? d.worker = some l := by
  simp [heard]

theorem mem_ahead : d ∈ h.ahead l ↔
    h.listener? d.worker = some l ∧ ∃ w, h.workers[d.worker]? = some w ∧ d.event ∈ w.queue := by
  simp only [ahead, List.mem_flatMap, List.mem_filter, List.mem_range, decide_eq_true_eq,
    mem_queued]
  constructor
  · rintro ⟨id, ⟨-, own⟩, rfl, queued⟩
    exact ⟨own, queued⟩
  · rintro ⟨own, w, worker, queued⟩
    exact ⟨d.worker, ⟨(List.getElem?_eq_some_iff.1 worker).1, own⟩, rfl, w, worker, queued⟩

theorem mem_begun_iff : d.event ∈ h.begun d.worker ↔ d ∈ h.deliveries.toList := by
  refine ⟨fun begun => ?_, mem_begun⟩
  obtain ⟨⟨id, e⟩, found, same⟩ := List.mem_map.1 begun
  obtain ⟨made, own⟩ := List.mem_filter.1 found
  obtain ⟨id', e'⟩ := d
  cases same
  cases of_decide_eq_true own
  exact made

/-- What a listener has heard and has still to expect are the trails of its workers. -/
theorem mem_heard_append_ahead : d ∈ h.heard l ++ h.ahead l ↔
    ∃ w, h.workers[d.worker]? = some w ∧ w.listener = l ∧ d.event ∈ h.trail d.worker w := by
  simp only [List.mem_append, mem_heard, mem_ahead, listener?_eq_some_iff, trail, mem_begun_iff]
  constructor
  · rintro (⟨made, w, worker, own⟩ | ⟨⟨w, worker, own⟩, v, there, queued⟩)
    · exact ⟨w, worker, own, .inl made⟩
    · rw [worker] at there
      cases there
      exact ⟨w, worker, own, .inr queued⟩
  · rintro ⟨w, worker, own, made | queued⟩
    · exact .inl ⟨made, w, worker, own⟩
    · exact .inr ⟨⟨w, worker, own⟩, w, worker, queued⟩

theorem map_written (complete : ∀ d ∈ h.deliveries.toList, d.event.Complete) (id : Nat) :
    (h.written id).map LogRecord.event? = (h.begun id).map some := by
  rw [written, List.map_map]
  refine List.map_congr_left fun e begun => ?_
  obtain ⟨d, made, rfl⟩ := List.mem_map.1 begun
  exact LogRecord.event?_of_complete (complete d (List.mem_filter.1 made).1)

theorem map_records (complete : ∀ d ∈ h.deliveries.toList, d.event.Complete) (l : Listener) :
    (h.records l).map LogRecord.event? = (h.heard l).map fun d => some d.event := by
  rw [records, List.map_map]
  exact List.map_congr_left fun d heard =>
    LogRecord.event?_of_complete (complete d (mem_heard.1 heard).1)

/-! ## The order of writing -/

theorem InOrder.ahead (inOrder : h.InOrder) (l : Listener) : (h.ahead l).Pairwise fun d d' =>
    d.worker ≤ d'.worker ∧ d.event.seq < d'.event.seq := by
  rw [Hub.ahead, List.pairwise_flatMap]
  constructor
  · intro id _
    cases there : h.workers[id]? with
    | none => simp [queued, there]
    | some w =>
      have sorted := inOrder.sorted there
      rw [trail, List.pairwise_append] at sorted
      rw [queued, there, Option.elim_some, List.pairwise_map]
      exact sorted.2.1.imp fun lt => ⟨Nat.le_refl _, lt⟩
  · rw [List.pairwise_filter]
    refine List.pairwise_lt_range.imp fun {i j} lt own own' d first d' second => ?_
    obtain ⟨rfl, v, worker, older⟩ := mem_queued.1 first
    obtain ⟨rfl, w, worker', younger⟩ := mem_queued.1 second
    simp only [listener?, worker, worker', Option.map_some, decide_eq_true_eq,
      Option.some.injEq] at own own'
    exact ⟨Nat.le_of_lt lt, inOrder.apart ⟨lt, worker, worker', own.trans own'.symm⟩ _
      (List.mem_append_right _ older) _ (List.mem_append_right _ younger)⟩

/-- Each delivery follows those before it, also among those still to come. -/
theorem follows_heard_append_ahead (busCapacity : Nat) (queueOverride? : Option Nat)
    (past : List HubAction) (l : Listener) :
    (((create busCapacity queueOverride? []).after past).heard l ++
      ((create busCapacity queueOverride? []).after past).ahead l).Pairwise
      ((create busCapacity queueOverride? []).Follows past l) := by
  have inOrder := inOrder_after busCapacity queueOverride? past
  rw [List.pairwise_append]
  refine ⟨?_, (inOrder.ahead l).imp .inl, fun d heard d' ahead => ?_⟩
  · rw [heard, List.pairwise_filter]
    refine (follows_after busCapacity queueOverride? past).imp fun follows own own' => ?_
    exact follows l (of_decide_eq_true own) (of_decide_eq_true own')
  · obtain ⟨made, own⟩ := mem_heard.1 heard
    obtain ⟨own', w, worker, queued⟩ := mem_ahead.1 ahead
    rw [listener?, worker, Option.map_some, Option.some.injEq] at own'
    subst own'
    exact follows_of_queue rfl inOrder worker queued made own

/-! ## What is written -/

theorem contains_of_member {earlier : List HubAction}
    (worker : (h.after (earlier ++ past)).workers[id]? = some w)
    (member : id ∈ (h.after earlier).members) : (h.after earlier).contains w.listener = true := by
  obtain ⟨v, was, attached⟩ := mem_members.1 member
  obtain ⟨w', worker', listener, -⟩ := worker_after was past
  rw [← after_append, worker] at worker'
  cases worker'
  exact contains_eq_true_iff.2 ⟨id, v, was, attached, listener.symm⟩

theorem member_of_contains {earlier : List HubAction} (member : (h.after earlier).contains l = true)
    (past : List HubAction) : ∃ id w, (h.after (earlier ++ past)).workers[id]? = some w ∧
      w.listener = l ∧ id ∈ (h.after earlier).members := by
  obtain ⟨id, v, was, attached, own⟩ := contains_eq_true_iff.1 member
  obtain ⟨w, worker, listener, -⟩ := worker_after was past
  rw [← after_append] at worker
  exact ⟨id, w, worker, listener.trans own, mem_members.2 ⟨v, was, attached⟩⟩

/-- The workers of a listener have, all together, what was emitted while it was a member. -/
theorem mem_map_event
    (unfailing : ∀ id, ((create busCapacity queueOverride? []).after past).listener? id = some l →
      (create busCapacity queueOverride? []).Unfailing past id) :
    e ∈ (((create busCapacity queueOverride? []).after past).heard l ++
        ((create busCapacity queueOverride? []).after past).ahead l).map Delivery.event ↔
      e ∈ (create busCapacity queueOverride? []).emittedWhile (·.contains l) past := by
  have has : ∀ {id w}, ((create busCapacity queueOverride? []).after past).workers[id]? = some w →
      w.listener = l → ((create busCapacity queueOverride? []).after past).trail id w =
        (create busCapacity queueOverride? []).emittedWhile (·.members.contains id) past :=
    fun worker own =>
      trail_eq_emitted worker (unfailing _ (listener?_eq_some_iff.2 ⟨_, worker, own⟩))
  generalize create busCapacity queueOverride? [] = h₀ at *
  rw [List.mem_map, mem_emittedWhile]
  constructor
  · rintro ⟨d, there, rfl⟩
    obtain ⟨w, worker, own, there⟩ := mem_heard_append_ahead.1 there
    rw [has worker own, mem_emittedWhile] at there
    obtain ⟨before, x, rest, rfl, member, offered⟩ := there
    exact ⟨before, x, rest, rfl,
      own ▸ contains_of_member worker (List.contains_iff_mem.1 member), offered⟩
  · rintro ⟨before, x, rest, rfl, member, offered⟩
    obtain ⟨id, w, worker, own, member⟩ := member_of_contains member (x :: rest)
    refine ⟨⟨id, e⟩, mem_heard_append_ahead.2 ⟨w, worker, own, ?_⟩, rfl⟩
    rw [has worker own, mem_emittedWhile]
    exact ⟨before, x, rest, rfl, List.contains_iff_mem.2 member, offered⟩

theorem Follows.seq_ne (f : h.Follows past l d d') : d.event.seq ≠ d'.event.seq := by
  rcases f with ⟨-, lt⟩ | ⟨-, gt, -⟩
  · exact Nat.ne_of_lt lt
  · exact Nat.ne_of_gt gt

theorem perm_emittedWhile
    (unfailing : ∀ id, ((create busCapacity queueOverride? []).after past).listener? id = some l →
      (create busCapacity queueOverride? []).Unfailing past id) :
    ((((create busCapacity queueOverride? []).after past).heard l ++
        ((create busCapacity queueOverride? []).after past).ahead l).map Delivery.event).Perm
      ((create busCapacity queueOverride? []).emittedWhile (·.contains l) past) := by
  have follows := follows_heard_append_ahead busCapacity queueOverride? past l
  have ordered := emittedWhile_ordered (create busCapacity queueOverride? []) (·.contains l) past
  refine (List.perm_ext_iff_of_nodup ?_ ?_).2 fun e => mem_map_event unfailing
  · rw [List.Nodup, List.pairwise_map]
    exact follows.imp fun f same => f.seq_ne (congrArg Event.seq same)
  · exact ordered.imp fun lt same => Nat.ne_of_lt lt (congrArg Event.seq same)

/-- The events are in order as long as nothing was queued for a former worker when the next one
came. -/
theorem eq_emittedWhile
    (unfailing : ∀ id, ((create busCapacity queueOverride? []).after past).listener? id = some l →
      (create busCapacity queueOverride? []).Unfailing past id)
    (done : ∀ i j w, (create busCapacity queueOverride? []).Predecessor past l i j w →
      w.queue = []) :
    (((create busCapacity queueOverride? []).after past).heard l ++
        ((create busCapacity queueOverride? []).after past).ahead l).map Delivery.event =
      (create busCapacity queueOverride? []).emittedWhile (·.contains l) past := by
  have follows := follows_heard_append_ahead busCapacity queueOverride? past l
  refine (perm_emittedWhile unfailing).eq_of_pairwise
    (fun e f _ _ lt gt => absurd gt (Nat.lt_asymm lt)) ?_ (emittedWhile_ordered _ _ _)
  rw [List.pairwise_map]
  refine follows.imp fun {d d'} f => ?_
  rcases f with ⟨-, lt⟩ | ⟨-, -, w, before, left⟩
  · exact lt
  · rw [done _ _ w before] at left
    cases left

end Hub

namespace Controller

theorem complete_after (config : Config) (listeners : List Listener) (history : List Action) :
    ((create config listeners).after history).hub.Complete := by
  refine after_induction (P := fun c => c.hub.Complete) ?_ (fun {c d x} hs complete => ?_) history
  · intro e member
    rw [(new_create config listeners).journal] at member
    cases member
  · rcases hs.hub with same | ⟨n, told, -, emits⟩ | ⟨y, -, steps⟩
    · rwa [same]
    · rw [emits]
      exact complete.emit told
    · rw [steps]
      exact complete.stepListeners y

/-- What a listener begins to handle was created, and tells of the server. -/
theorem tells_of_begun (config : Config) (listeners : List Listener) (history : List Action) :
    let h := ((create config listeners).after history).hub
    ∀ d ∈ h.deliveries.toList, h.Tells d.event :=
  (recorded_after (c := create config listeners) (Hub.recorded_create _ _ _) history).begun

/-- **A log writer loses nothing that it is told.** Let `past` be what happened to the listeners of
a controller in any history, and what was emitted to them, which is every event about the server
(1). Every event at all is recovered from its record, but no listener is handed one about a listener
(2). If the worker of a membership never broke and never lacked room, its listener's records tell,
in order, of what was emitted while the membership lasted, but for what is queued, and nothing is
queued when the worker has exited (3). All the records of a listener whose workers never failed, and
what is queued, tell of what was emitted while it was a member, each event once; and in order if
nothing was queued for a former worker whenever it was admitted again (4). -/
theorem log_faithful (config : Config) (listeners : List Listener) (history : List Action) :
    let c := (create config listeners).after history
    let h₀ := Hub.create config.effectiveBusCapacity config.queueOverride? []
    let past := listeners.map (.listeners <| .add ·) ++ (create config listeners).hubHistory history
    (c.hub = h₀.after past ∧ c.hub.serverEvents = h₀.emissions past) ∧
    ((∀ e ∈ c.hub.journal.toList, (LogRecord.ofEvent e).event? = some e) ∧
      ∀ d ∈ c.hub.deliveries.toList, d.event.kind.isSubscriberEvent = false) ∧
    (∀ id w, c.hub.workers[id]? = some w → h₀.Unfailing past id →
      (c.hub.written id).map LogRecord.event? ++ w.queue.map some =
        (h₀.emittedWhile (·.members.contains id) past).map some ∧
      (w.status = .exited → w.queue = [])) ∧
    ∀ l, (∀ id, c.hub.listener? id = some l → h₀.Unfailing past id) →
      ((c.hub.records l).map LogRecord.event? ++ (c.hub.ahead l).map fun d => some d.event).Perm
        ((h₀.emittedWhile (·.contains l) past).map some) ∧
      ((∀ i j w, h₀.Predecessor past l i j w → w.queue = []) →
        (c.hub.records l).map LogRecord.event? ++ (c.hub.ahead l).map (fun d => some d.event) =
          (h₀.emittedWhile (·.contains l) past).map some) := by
  intro c h₀ past
  have complete : c.hub.Complete := complete_after config listeners history
  have tells : ∀ d ∈ c.hub.deliveries.toList, c.hub.Tells d.event :=
    tells_of_begun config listeners history
  have begun : ∀ d ∈ c.hub.deliveries.toList, d.event.Complete :=
    fun d made => complete _ (tells d made).1
  have own : c.hub = h₀.after past ∧ c.hub.serverEvents = h₀.emissions past :=
    hub_after_create config listeners history
  have told : ∀ l, (c.hub.records l).map LogRecord.event? ++
      (c.hub.ahead l).map (fun d => some d.event) =
        ((c.hub.heard l ++ c.hub.ahead l).map Delivery.event).map some := by
    intro l
    rw [Hub.map_records begun, ← List.map_append, List.map_map]
    rfl
  refine ⟨own, ⟨fun e created => ?_, fun d made => (tells d made).2⟩,
    fun id w worker unfailing => ⟨?_, fun exited => ?_⟩, fun l unfailing => ?_⟩
  · exact LogRecord.event?_of_complete (complete e created)
  · rw [Hub.map_written begun, ← List.map_append]
    rw [own.1] at worker ⊢
    exact congrArg _ (Hub.trail_eq_emitted worker unfailing)
  · rw [own.1] at worker
    exact Hub.drained_of_exited worker exited
  · rw [told, own.1]
    rw [own.1] at unfailing
    exact ⟨(Hub.perm_emittedWhile unfailing).map some,
      fun done => congrArg _ (Hub.eq_emittedWhile unfailing done)⟩

/-- A log writer leaves, comes back and writes on. In its absence the activity goes, whose name has
quotation marks in it; the last event is still queued. -/
theorem log_faithful_readmitted :
    let l : Listener := { key := "l", name := "LogWriter" }
    let a : Activity := { key := "a", name := "say \"when\"" }
    let history : List Action := [.register a 0, .listeners (.take 0), .listeners (.returned 0),
      .listeners (.remove l), .unregister a, .listeners (.add l), .register a 9,
      .listeners (.take 1), .resume {}]
    let c := (create {} [l]).after history
    let h₀ := Hub.create 1024 none []
    let past := .listeners (.add l) :: (create {} [l]).hubHistory history
    (∀ id, c.hub.listener? id = some l → h₀.Unfailing past id) ∧
    (∀ i j w, h₀.Predecessor past l i j w → w.queue = []) ∧
    (c.hub.records l).length = 2 ∧
    (c.hub.records l).map LogRecord.event? ++ (c.hub.ahead l).map (fun d => some d.event) =
      [some ⟨.registered a .first, 0⟩, some ⟨.registered a .last, 2⟩,
        some ⟨.suspendCancelled, 3⟩] := by
  intro l a history c h₀ past
  obtain ⟨⟨hub, -⟩, -, -, written⟩ := log_faithful {} [l] history
  have hub : c.hub = h₀.after past := hub
  have unfailing : ∀ id, c.hub.listener? id = some l → h₀.Unfailing past id := by
    intro id own
    rw [hub] at own
    exact Hub.unfailing_of_roomy (by decide +kernel) (by decide +kernel) own
  have drained : ∀ k < past.length, past[k]? = some (.listeners (.add l)) →
      ∀ w ∈ (h₀.after (past.take k)).workers, w.queue = [] := by decide +kernel
  have done : ∀ i j w, h₀.Predecessor past l i j w → w.queue = [] := by
    intro i j w predecessor
    obtain ⟨k, lt, admits, member⟩ := predecessor.mem_workers
    exact drained k lt admits w member
  have emitted : h₀.emittedWhile (·.contains l) past =
      [⟨.registered a .first, 0⟩, ⟨.registered a .last, 2⟩, ⟨.suspendCancelled, 3⟩] := by
    decide +kernel
  exact ⟨unfailing, done, by decide +kernel,
    ((written l unfailing).2 done).trans (congrArg (List.map some) emitted)⟩

/-- Neither of two log writers ever lacks room, and nothing is left queued for them. Beside the
first another listener has no room for the second event: the event that tells of it is in no record.
The second leaves and comes back while two events are queued: it writes of the third event first. -/
theorem log_unfaithful :
    let l : Listener := { key := "l", name := "LogWriter" }
    let m : Listener := { key := "m", name := "m", capacity := 1 }
    let a : Activity := { key := "a", name := "a" }
    let b : Activity := { key := "b", name := "b" }
    let running : Config := { requestedState := .running }
    let handle (id : Nat) : List Action := [.listeners (.take id), .listeners (.returned id)]
    let beside := [.register a 0, .register b 0] ++ handle 0 ++ handle 0
    let again := [.register a 0, .register b 0, .listeners (.remove l), .listeners (.add l),
      .unregister a] ++ handle 1 ++ handle 0 ++ handle 0
    let h₀ := Hub.create 1024 none []
    let c := (create running [l, m]).after beside
    let d := (create running [l]).after again
    ((∀ id, c.hub.listener? id = some l → h₀.Unfailing ([.listeners (.add l), .listeners (.add m)] ++
        (create running [l, m]).hubHistory beside) id) ∧
      c.hub.ahead l = [] ∧
      c.hub.journal.toList = [⟨.registered a .first, 0⟩, ⟨.registered b .first, 1⟩,
        ⟨.overflow "m" "full", 2⟩] ∧
      (c.hub.records l).map LogRecord.event? =
        [some ⟨.registered a .first, 0⟩, some ⟨.registered b .first, 1⟩]) ∧
    (∀ id, d.hub.listener? id = some l → h₀.Unfailing
        (.listeners (.add l) :: (create running [l]).hubHistory again) id) ∧
      d.hub.ahead l = [] ∧
      d.hub.journal.toList = [⟨.registered a .first, 0⟩, ⟨.registered b .first, 1⟩,
        ⟨.unregistered a .first, 2⟩] ∧
      (d.hub.records l).map LogRecord.event? =
        [some ⟨.unregistered a .first, 2⟩, some ⟨.registered a .first, 0⟩,
          some ⟨.registered b .first, 1⟩] := by
  intro l m a b running handle beside again h₀ c d
  refine ⟨⟨fun id own => ?_, by decide +kernel, by decide +kernel, by decide +kernel⟩,
    fun id own => ?_, by decide +kernel, by decide +kernel, by decide +kernel⟩
  · rw [show c.hub = h₀.after _ from (hub_after_create running [l, m] beside).1] at own
    exact Hub.unfailing_of_roomy (by decide +kernel) (by decide +kernel) own
  · rw [show d.hub = h₀.after _ from (hub_after_create running [l] again).1] at own
    exact Hub.unfailing_of_roomy (by decide +kernel) (by decide +kernel) own

end Controller

end Quiesce
