import Quiesce.Proofs.WorkerStep
/-!
# Every event of a membership is accounted for

A membership of a listener has one worker. The events that are offered to this worker are those that
are emitted while the membership lasts (`offers_eq`), and each is accepted or dropped. What is
accepted is conserved: a step of the worker moves events from its queue into the hands of the
listener, oldest first, and takes nothing and adds nothing otherwise (`WorkerStep.conserves`), up to
the one step by which a worker breaks and its queue is lost. A drop is told on the bus at once
(`Answers`).
-/

namespace Quiesce

/-- The bus is told of the event itself, not only of its being dropped. -/
def HubAction.publishes : HubAction → Bool
  | .publish _ | .emit _ => true
  | .distribute _ | .listeners _ => false

namespace Worker

variable {w : Worker}

/-- What holds of a worker at any time. -/
structure Sound (w : Worker) : Prop where
  fits : w.queue.length ≤ w.capacity
  lost : w.status = .dead → w.queue = []
  left : w.status = .exited → w.attached = false

theorem sound_create (l : Listener) (queueOverride? : Option Nat) :
    (create l queueOverride?).Sound where
  fits := Nat.zero_le _
  lost broken := by cases broken
  left finished := by cases finished

/-- Why a worker drops the event that it is offered, if it does: it is broken, or else as many
events are queued as there is room for. -/
def answer? (w : Worker) (room : Nat) : Option DropReason :=
  if w.status = .dead then some .closed else if w.queue.length = room then some .full else none

theorem Sound.refusal?_eq (sound : w.Sound) (attached : w.attached = true) :
    w.refusal? = w.answer? w.capacity := by
  have full : w.capacity ≤ w.queue.length ↔ w.queue.length = w.capacity :=
    ⟨fun le => Nat.le_antisymm sound.fits le, fun eq => Nat.le_of_eq eq.symm⟩
  unfold refusal? isTerminated answer?
  cases status : w.status with
  | exited =>
    rw [sound.left status] at attached
    cases attached
  | idle | handling e | dead => simp [full]

end Worker

namespace Hub

variable {h : Hub} {x : HubAction} {id : Nat} {w w' : Worker} {e : Event} {es : List Event}
  {l : Listener} {later : List HubAction}

/-! ## Offers -/

/-- The events that are emitted to the members in the course of a history. -/
def emissions (h : Hub) : List HubAction → List Event
  | [] => []
  | x :: later => (h.offered? x).toList ++ (h.step x).emissions later

/-- The event that an action offers to worker `id`, and why it is refused, if it is. -/
def offer? (h : Hub) (id : Nat) (x : HubAction) : Option (Event × Option DropReason) := do
  let e ← h.offered? x
  let w ← h.workers[id]?
  if w.attached then some (e, w.refusal?) else none

def offers (h : Hub) (id : Nat) : List HubAction → List (Event × Option DropReason)
  | [] => []
  | x :: later => (h.offer? id x).toList ++ (h.step x).offers id later

/-- The events among the offers that are not refused. -/
def acceptedOf (offers : List (Event × Option DropReason)) : List Event :=
  (offers.filter fun o => o.2.isNone).map (·.1)

/-- A membership of the listener in a history: it is admitted after `before` and stays a member for
`during`; `rest` begins with the end of the membership, unless it still lasts. -/
structure Membership (h : Hub) (history : List HubAction) (l : Listener)
    (before during rest : List HubAction) : Prop where
  split : history = before ++ .listeners (.add l) :: (during ++ rest)
  admitted : (h.after before).contains l = false
  lasts : ∀ x ∈ during, x.ends l = false
  ended : ∀ x ∈ rest.head?, x.ends l = true

/-! ## One action -/

theorem WorkerStep.sound (s : h.WorkerStep id w x w' es) (sound : w.Sound) : w'.Sound := by
  obtain ⟨fits, lost, left⟩ := sound
  cases s with
  | stayed => exact ⟨fits, lost, left⟩
  | accepted x e offered attached room =>
    unfold Worker.refusal? Worker.isTerminated at room
    cases status : w.status with
    | dead | exited => simp [status] at room
    | idle | handling e' =>
      simp only [status, Bool.false_eq_true, if_false, ite_eq_right_iff, reduceCtorEq, imp_false,
        Nat.not_le] at room
      refine ⟨?_, by simp, by simp⟩
      rw [List.length_append]
      exact room
  | took e rest free queue =>
    rw [queue, List.length_cons] at fits
    exact ⟨Nat.le_of_succ_le fits, by simp, by simp⟩
  | finished => exact ⟨fits, by simp, by simp⟩
  | died => exact ⟨Nat.zero_le _, fun _ => rfl, by simp⟩
  | exited detached => exact ⟨fits, by simp, fun _ => detached⟩
  | detached => exact ⟨fits, lost, fun _ => rfl⟩

theorem offer?_eq (worker : h.workers[id]? = some w) (x : HubAction) :
    h.offer? id x =
      (h.offered? x).bind fun e => if w.attached then some (e, w.refusal?) else none := by
  simp [offer?, worker]

theorem offer?_of_silent (silent : h.offered? x = none) : h.offer? id x = none := by
  simp [offer?, silent]

/-- **A worker that does not break loses nothing and invents nothing.** -/
theorem WorkerStep.conserves (s : h.WorkerStep id w x w' es) (worker : h.workers[id]? = some w)
    (unbroken : w'.status = .dead → w.status = .dead) :
    w.queue ++ acceptedOf (h.offer? id x).toList = es ++ w'.queue := by
  have silent : h.offered? x = none → acceptedOf (h.offer? id x).toList = [] := fun none => by
    rw [offer?_of_silent none]
    rfl
  cases s with
  | stayed x unended refused =>
    have nothing : acceptedOf (h.offer? id x).toList = [] := by
      rw [offer?_eq worker]
      cases offered : h.offered? x with
      | none => rfl
      | some e =>
        by_cases attached : w.attached = true
        · have refuses := refused e offered attached
          simp [acceptedOf, attached, Option.isNone_iff_eq_none, refuses]
        · simp [acceptedOf, attached]
    rw [nothing, List.append_nil, List.nil_append]
  | accepted x e offered attached room =>
    rw [offer?_eq worker, offered]
    simp [acceptedOf, attached, room]
  | took e rest free queue => rw [silent rfl, queue, List.append_nil, List.singleton_append]
  | finished x e handling own =>
    rw [silent (by rcases own with rfl | ⟨p, rfl⟩ <;> rfl), List.append_nil, List.nil_append]
  | died e handling =>
    rw [handling] at unbroken
    cases unbroken rfl
  | exited => rw [silent rfl, List.append_nil, List.nil_append]
  | detached x ends =>
    rw [silent (offered?_of_ends ends), List.append_nil, List.nil_append]
    rfl

/-- A worker that breaks does so over an event, and its queue is lost. -/
theorem WorkerStep.breaks (s : h.WorkerStep id w x w' es) (alive : w.status ≠ .dead)
    (dead : w'.status = .dead) :
    x = .listeners (.die id) ∧ (∃ e, w.status = .handling e) ∧ es = [] ∧ w'.queue = [] := by
  cases s with
  | died e handling => exact ⟨rfl, ⟨e, handling⟩, rfl, rfl⟩
  | stayed | accepted | detached => exact absurd dead alive
  | took | finished | exited => cases dead

theorem WorkerStep.of_dead (s : h.WorkerStep id w x w' es) (worker : h.workers[id]? = some w)
    (dead : w.status = .dead) :
    w'.status = .dead ∧ es = [] ∧ acceptedOf (h.offer? id x).toList = [] := by
  have closed : w.refusal? = some .closed := by simp [Worker.refusal?, Worker.isTerminated, dead]
  refine ⟨?_, ?_, ?_⟩
  · cases s <;> simp_all [Worker.detach]
  · cases s <;> simp_all
  · rw [offer?_eq worker]
    cases offered : h.offered? x with
    | none => rfl
    | some e => cases attached : w.attached <;> simp [acceptedOf, closed]

/-! ## The account of a worker -/

/-- Of the events that worker `id` has accepted its listener began to handle some, others are
queued, and others were lost when it broke. -/
structure Account (h : Hub) (id : Nat) (accepted lost : List Event) (w : Worker) : Prop where
  worker : h.workers[id]? = some w
  sound : w.Sound
  balance : accepted = h.begun id ++ (w.queue ++ lost)
  alive : w.status ≠ .dead → lost = []

/-- The worker was broken by a step of the history, when these events were queued. -/
def Broke (h : Hub) (id : Nat) (history : List HubAction) (lost : List Event) : Prop :=
  ∃ earlier later w e, history = earlier ++ .listeners (.die id) :: later ∧
    (h.after earlier).workers[id]? = some w ∧ w.status = .handling e ∧ w.queue = lost

theorem Broke.concat {history lost : List _} (broke : h.Broke id history lost) (x : HubAction) :
    h.Broke id (history ++ [x]) lost := by
  obtain ⟨earlier, later, w, e, rfl, rest⟩ := broke
  exact ⟨earlier, later ++ [x], w, e, by simp, rest⟩

theorem offers_append (h : Hub) (id : Nat) (earlier later : List HubAction) :
    h.offers id (earlier ++ later) = h.offers id earlier ++ (h.after earlier).offers id later := by
  induction earlier generalizing h with
  | nil => rfl
  | cons x earlier ih => simp [offers, ih]

theorem acceptedOf_append (os os' : List (Event × Option DropReason)) :
    acceptedOf (os ++ os') = acceptedOf os ++ acceptedOf os' := by
  simp [acceptedOf]

theorem Account.step {accepted lost : List Event} (account : h.Account id accepted lost w)
    (x : HubAction) :
    ∃ w' lost', (h.step x).Account id (accepted ++ acceptedOf (h.offer? id x).toList) lost' w' ∧
      (lost' = lost ∧ (w.status = .dead ↔ w'.status = .dead) ∨
        w.status ≠ .dead ∧ x = .listeners (.die id) ∧ (∃ e, w.status = .handling e) ∧
          lost' = w.queue) := by
  obtain ⟨worker, sound, balance, alive⟩ := account
  obtain ⟨w', es, worker', begun', s⟩ := worker_step h x worker
  have sound' := s.sound sound
  -- The worker is broken already, or it breaks now, or it goes on and conserves what it has.
  by_cases dead : w.status = .dead
  · obtain ⟨dead', nothing, none⟩ := s.of_dead worker dead
    refine ⟨w', lost, ⟨worker', sound', ?_, fun alive' => absurd dead' alive'⟩,
      .inl ⟨rfl, iff_of_true dead dead'⟩⟩
    rw [begun', nothing, none, sound'.lost dead', balance, sound.lost dead]
    simp
  · by_cases dead' : w'.status = .dead
    · obtain ⟨die, handling, nothing, gone⟩ := s.breaks dead dead'
      refine ⟨w', w.queue, ⟨worker', sound', ?_, fun alive' => absurd dead' alive'⟩,
        .inr ⟨dead, die, handling, rfl⟩⟩
      have none : h.offer? id x = .none := offer?_of_silent (by rw [die]; rfl)
      rw [begun', nothing, gone, none, balance, alive dead]
      simp [acceptedOf]
    · have conserved := s.conserves worker fun dead => absurd dead dead'
      refine ⟨w', lost, ⟨worker', sound', ?_, fun _ => alive dead⟩,
        .inl ⟨rfl, iff_of_false dead dead'⟩⟩
      rw [begun', balance, alive dead]
      simp [conserved]

/-- The account is in balance after every history, and a loss is due to the worker's breaking. -/
theorem account_after (fresh : h.Account id [] [] w) (alive : w.status ≠ .dead)
    (later : List HubAction) :
    ∃ w' lost, (h.after later).Account id (acceptedOf (h.offers id later)) lost w' ∧
      (w'.status = .dead → h.Broke id later lost) := by
  induction later using List.reverseRecOn with
  | nil => exact ⟨w, [], fresh, fun dead => absurd dead alive⟩
  | append_singleton later x ih =>
    obtain ⟨w₁, lost, account, broke⟩ := ih
    obtain ⟨w', lost', account', why⟩ := account.step x
    have accepted : acceptedOf (h.offers id (later ++ [x])) =
        acceptedOf (h.offers id later) ++ acceptedOf ((h.after later).offer? id x).toList := by
      rw [offers_append, acceptedOf_append]
      simp [offers]
    rw [after_concat, accepted]
    refine ⟨w', lost', account', fun dead' => ?_⟩
    rcases why with ⟨rfl, same⟩ | ⟨-, rfl, ⟨e, handling⟩, rfl⟩
    · exact (broke (same.2 dead')).concat x
    · exact ⟨later, [], w₁, e, by simp, account.worker, handling, rfl⟩

/-! ## What is offered in a history -/

theorem offers_of_lasts (worker : h.workers[id]? = some w) (attached : w.attached = true)
    (lasts : ∀ x ∈ later, x.ends w.listener = false) :
    (h.offers id later).map (·.1) = h.emissions later := by
  induction later generalizing h w with
  | nil => rfl
  | cons x later ih =>
    obtain ⟨w', es, worker', -, s⟩ := worker_step h x worker
    have ends := lasts x List.mem_cons_self
    have rest := ih worker' (by rw [s.attached, attached, ends]; rfl)
      fun y later => by rw [s.listener]; exact lasts y (List.mem_cons_of_mem x later)
    rw [offers, emissions, List.map_append, rest, offer?_eq worker]
    cases h.offered? x <;> simp [attached]

theorem offers_of_detached (worker : h.workers[id]? = some w) (detached : w.attached = false) :
    h.offers id later = [] := by
  induction later generalizing h w with
  | nil => rfl
  | cons x later ih =>
    obtain ⟨w', es, worker', -, s⟩ := worker_step h x worker
    rw [offers, ih worker' (by rw [s.attached, detached]; rfl), offer?_eq worker]
    cases h.offered? x <;> simp [detached]

/-- **What is offered to a worker is what is emitted while its membership lasts.** -/
theorem offers_eq {during rest : List HubAction} (worker : h.workers[id]? = some w)
    (attached : w.attached = true) (lasts : ∀ x ∈ during, x.ends w.listener = false)
    (ended : ∀ x ∈ rest.head?, x.ends w.listener = true) :
    (h.offers id (during ++ rest)).map (·.1) = h.emissions during := by
  obtain ⟨w', worker', listener, -, -⟩ := worker_after worker during
  have silent : (h.after during).offers id rest = [] := by
    cases rest with
    | nil => rfl
    | cons x rest =>
      -- The action that ends the membership offers nothing itself, and later ones find no member.
      have ends := ended x rfl
      obtain ⟨w₁, es, worker₁, -, s⟩ := worker_step (h.after during) x worker'
      rw [offers, offer?_of_silent (offered?_of_ends ends), offers_of_detached worker₁]
      · rfl
      · rw [s.attached, listener, ends]; simp
  rw [offers_append, silent, List.append_nil, offers_of_lasts worker attached lasts]

/-! ## The order of events -/

theorem le_seq_of_emissions (emitted : e ∈ h.emissions later) : h.journal.size ≤ e.seq := by
  induction later generalizing h with
  | nil => cases emitted
  | cons x later ih =>
    rw [emissions, List.mem_append, Option.mem_toList] at emitted
    rcases emitted with now | afterwards
    · exact Nat.le_of_eq (seq_of_offered? now).symm
    · exact Nat.le_trans (size_journal_le_step h x) (ih afterwards)

theorem emissions_ordered (h : Hub) (later : List HubAction) :
    (h.emissions later).Pairwise fun e f => e.seq < f.seq := by
  induction later generalizing h with
  | nil => exact .nil
  | cons x later ih =>
    rw [emissions, List.pairwise_append]
    refine ⟨by cases h.offered? x <;> simp, ih _, fun e now f afterwards => ?_⟩
    rw [Option.mem_toList] at now
    calc e.seq = h.journal.size := seq_of_offered? now
      _ < (h.step x).journal.size := size_journal_lt_step now
      _ ≤ f.seq := le_seq_of_emissions afterwards

theorem acceptedOf_sublist (os : List (Event × Option DropReason)) :
    (acceptedOf os).Sublist (os.map (·.1)) :=
  List.filter_sublist.map _

theorem acceptedOf_nodup {os : List (Event × Option DropReason)}
    (ordered : (os.map (·.1)).Pairwise fun e f => e.seq < f.seq) : (acceptedOf os).Nodup := by
  refine (ordered.sublist (acceptedOf_sublist os)).imp fun lt eq => ?_
  subst eq
  exact Nat.lt_irrefl _ lt

/-! ## What the bus is told -/

/-- The bus is told of each drop before it is told of the event. -/
theorem bus_of_offered? (offered : h.offered? x = some e) :
    ∃ overflows, (h.step x).bus.stream.toList =
        h.bus.stream.toList ++ overflows ++ (if x.publishes then [e] else []) ∧
      overflows.map Event.toNotice = h.workers.filterMap Worker.dropNotice? := by
  cases x with
  | publish | listeners => cases offered
  | distribute n | emit n =>
    cases offered
    obtain ⟨es, -, stream, notices⟩ := foldl_publish_grows (h.workers.filterMap Worker.dropNotice?)
      { h with
        journal := h.journal.push (h.next n)
        workers := h.workers.map fun w => w.offer (h.next n) }
    exact ⟨es, by simp [step, emit, distribute, Bus.publish, stream, HubAction.publishes], notices⟩

theorem filterMap_workers {β : Type} (worker : h.workers[id]? = some w) (f : Worker → Option β) :
    h.workers.filterMap f = (h.workers.take id).filterMap f ++ (f w).toList ++
      (h.workers.drop (id + 1)).filterMap f := by
  obtain ⟨lt, rfl⟩ := List.getElem?_eq_some_iff.1 worker
  conv_lhs => rw [← List.take_append_drop id h.workers, List.drop_eq_getElem_cons lt]
  rw [List.filterMap_append, List.filterMap_cons, List.append_assoc]
  cases f h.workers[id] <;> rfl

/-- Worker `id` answers the event that an action offers to the members: it queues it, unless it is
broken or has as many events queued as there is room for. It is told on the bus by one overflow, at
its place among those of the other workers, that and why it drops the event. -/
def Answers (h : Hub) (id : Nat) (l : Listener) (room : Nat) (x : HubAction) (e : Event) : Prop :=
  ∃ w overflows, h.workers[id]? = some w ∧ h.offer? id x = some (e, w.answer? room) ∧
    (h.step x).bus.stream.toList =
      h.bus.stream.toList ++ overflows ++ (if x.publishes then [e] else []) ∧
    overflows.map Event.toNotice = (h.workers.take id).filterMap Worker.dropNotice? ++
      ((w.answer? room).map (Notice.overflow l.name ·.label)).toList ++
      (h.workers.drop (id + 1)).filterMap Worker.dropNotice?

theorem answers_of_sound (worker : h.workers[id]? = some w) (sound : w.Sound)
    (attached : w.attached = true) (offered : h.offered? x = some e) :
    h.Answers id w.listener w.capacity x e := by
  obtain ⟨overflows, stream, notices⟩ := bus_of_offered? offered
  have reply : w.refusal? = w.answer? w.capacity := sound.refusal?_eq attached
  refine ⟨w, overflows, worker, ?_, stream, ?_⟩
  · rw [offer?_eq worker, offered, ← reply]
    simp [attached]
  · rw [notices, filterMap_workers worker, ← reply, Worker.dropNotice?, if_pos attached]

/-! ## A membership -/

theorem account_of_add {busCapacity : Nat} {queueOverride? : Option Nat} {before : List HubAction}
    (admitted : ((create busCapacity queueOverride? []).after before).contains l = false) :
    ((create busCapacity queueOverride? []).after (before ++ [.listeners (.add l)])).Account
      ((create busCapacity queueOverride? []).after before).workers.length [] []
      (Worker.create l queueOverride?) := by
  have override := queueOverride?_after (create busCapacity queueOverride? []) before
  have nothing := begun_of_length_le (Nat.le_refl
    ((create busCapacity queueOverride? []).after before).workers.length)
  rw [after_concat]
  generalize (create busCapacity queueOverride? []).after before = h at *
  have added : h.step (.listeners (.add l)) =
      { h with workers := h.workers ++ [Worker.create l h.queueOverride?] } := by
    simp [step, stepListeners, add, admitted]
  rw [added]
  refine ⟨?_, Worker.sound_create l queueOverride?, ?_, fun _ => rfl⟩
  · rw [List.getElem?_concat_length, override]
    rfl
  · change [] = h.begun h.workers.length ++ []
    rw [nothing]
    rfl

/-- **Every event of a membership is accounted for.** Let a listener be admitted in the course of
any history of a hub with any first members. Its worker is offered what is emitted until the
membership ends, in this order, and nothing else (1, 2). It queues each event or drops it for one of
two reasons, and the bus is told at once (3). The events it queued are, each once and in order,
those that its listener began to handle and those that are queued still, at most as many as there is
room for (4, 5). Only a worker that broke has lost any, and just those that were queued then. -/
theorem membership_accounted (busCapacity : Nat) (queueOverride? : Option Nat)
    (listeners : List Listener) (history : List HubAction) {before during rest : List HubAction}
    (membership : (create busCapacity queueOverride? []).Membership
      (listeners.map (.listeners <| .add ·) ++ history) l before during rest) :
    let opened := (create busCapacity queueOverride? []).after (before ++ [.listeners (.add l)])
    let id := ((create busCapacity queueOverride? []).after before).workers.length
    let room := max (queueOverride?.getD l.capacity) 1
    let offers := opened.offers id (during ++ rest)
    let now := (create busCapacity queueOverride? listeners).after history
    offers.map (·.1) = opened.emissions during ∧
    (opened.emissions during).Pairwise (fun e f => e.seq < f.seq) ∧
    (∀ earlier x later e, during = earlier ++ x :: later →
      (opened.after earlier).offered? x = some e → (opened.after earlier).Answers id l room x e) ∧
    (acceptedOf offers).Nodup ∧
    ∃ w lost, now.workers[id]? = some w ∧ w.listener = l ∧ w.queue.length ≤ room ∧
      acceptedOf offers = now.begun id ++ (w.queue ++ lost) ∧
      (∀ e ∈ now.begun id ++ w.queue, e ∈ opened.emissions during) ∧
      (w.status ≠ .dead → lost = []) ∧
      (w.status = .dead → w.queue = [] ∧ opened.Broke id (during ++ rest) lost) := by
  intro opened id room offers now
  have fresh : opened.Account id [] [] (Worker.create l queueOverride?) :=
    account_of_add membership.admitted
  have alive : (Worker.create l queueOverride?).status ≠ .dead := by simp [Worker.create]
  have offered_eq : offers.map (·.1) = opened.emissions during :=
    offers_eq fresh.worker rfl membership.lasts membership.ended
  have ordered := emissions_ordered opened during
  have now_eq : now = opened.after (during ++ rest) := by
    simp only [now, opened]
    rw [create_eq_after, ← after_append, membership.split, ← after_append, List.append_assoc,
      List.singleton_append]
  refine ⟨offered_eq, ordered, ?_, acceptedOf_nodup (offered_eq ▸ ordered), ?_⟩
  · rintro earlier x later e rfl offered
    obtain ⟨w, lost, account, -⟩ := account_after fresh alive earlier
    obtain ⟨w', worker', listener, capacity, attached⟩ := worker_after fresh.worker earlier
    obtain rfl : w = w' := Option.some.inj (account.worker.symm.trans worker')
    have lasts : (earlier.all fun x => !x.ends l) = true := by
      simpa using fun y early => membership.lasts y (List.mem_append_left _ early)
    have answers := answers_of_sound worker' account.sound (by rw [attached]; exact lasts) offered
    rw [listener, capacity] at answers
    exact answers
  · obtain ⟨w, lost, account, broke⟩ := account_after fresh alive (during ++ rest)
    obtain ⟨w', worker', listener, capacity, -⟩ := worker_after fresh.worker (during ++ rest)
    obtain rfl : w = w' := Option.some.inj (account.worker.symm.trans worker')
    rw [now_eq]
    have fits : w.queue.length ≤ room := by
      rw [← show w.capacity = room from capacity]
      exact account.sound.fits
    have inside : ∀ e ∈ (opened.after (during ++ rest)).begun id ++ w.queue,
        e ∈ opened.emissions during := by
      intro e known
      rw [← offered_eq]
      refine (acceptedOf_sublist offers).subset ?_
      rw [account.balance, ← List.append_assoc]
      exact List.mem_append_left lost known
    exact ⟨w, lost, account.worker, listener, fits, account.balance, inside, account.alive,
      fun dead => ⟨account.sound.lost dead, broke dead⟩⟩

/-- A worker with room for one event drops the second for lack of room, breaks over the first while
the third is queued, and is closed to the fourth; the fifth comes after its membership. -/
theorem membership_accounted_broken :
    let l : Listener := { key := "l", name := "slow", capacity := 5 }
    let n : Notice := .suspendStarted
    let earlier : List HubAction :=
      [.emit n, .distribute n, .listeners (.take 0), .emit n, .listeners (.die 0)]
    let rest : List HubAction := [.listeners (.remove l), .emit n]
    let opened := (create 16 (some 0) []).after [.listeners (.add l)]
    let now := (create 16 (some 0) [l]).after (earlier ++ .emit n :: rest)
    (create 16 (some 0) []).Membership
      (.listeners (.add l) :: (earlier ++ .emit n :: rest)) l [] (earlier ++ [.emit n]) rest ∧
    (opened.after earlier).Answers 0 l 1 (.emit n) ⟨n, 4⟩ ∧
    ∃ lost, [⟨n, 0⟩, ⟨n, 3⟩] = now.begun 0 ++ lost ∧
      opened.Broke 0 (earlier ++ .emit n :: rest) lost := by
  intro l n earlier rest opened now
  have membership : (create 16 (some 0) []).Membership
      (.listeners (.add l) :: (earlier ++ .emit n :: rest)) l [] (earlier ++ [.emit n]) rest :=
    ⟨rfl, rfl, by decide, by decide⟩
  obtain ⟨-, -, answers, -, w, lost, worker, -, -, balance, -, -, broken⟩ :=
    membership_accounted 16 (some 0) [l] (earlier ++ .emit n :: rest) membership
  have dead : now.workers[0]? =
      some { listener := l, capacity := 1, attached := false, status := .dead } := by decide
  obtain rfl := Option.some.inj (worker.symm.trans dead)
  refine ⟨membership, answers earlier (.emit n) [] ⟨n, 4⟩ rfl (by decide), lost, ?_,
    (broken rfl).2⟩
  have accepted : acceptedOf (opened.offers 0 (earlier ++ .emit n :: rest)) =
      [⟨n, 0⟩, ⟨n, 3⟩] := by decide
  exact accepted.symm.trans balance

end Hub

end Quiesce
