import Mathlib.Data.List.Forall2
import Quiesce.Proofs.ListenerOrder
import Quiesce.Proofs.Renumbering
/-!
# A hub without some of its listeners

`Hub.erase` is what remains of a hub when the listeners that are `gone` are forgotten, and with them
their workers, what these did, and the events that are not `kept`. The workers that remain get new
places (`place?`) and the events new numbers. Erasing and stepping commute: what is done on the
listeners is done on the remains as far as it is left (`erase_stepListeners`), and an emission is an
emission of the remains (`erase_emit`). It takes no more than that

- an event is offered to each member by itself (`erase_map`),
- a worker's step is this worker's alone (`erase_put_kept`, `erase_put_gone`),
- an event about a listener goes to the bus and to no listener (`erase_publish_gone`),

whatever the listeners that are gone accept, drop, panic over or leave undone. Which events are kept
depends on whom they are about, and that is known when they are created (`Creates`, `Spares`).
-/

namespace Quiesce

variable {gone : Listener → Bool} {kept : Nat → Bool}

/-! ## Places in a filtered list -/

section
variable {α : Type} {p : α → Bool} {xs : List α} {i : Nat} {a b : α}

theorem getElem?_filter_countP (here : xs[i]? = some a) (pass : p a = true) :
    (xs.filter p)[(xs.take i).countP p]? = some a := by
  induction xs generalizing i with
  | nil => cases here
  | cons x xs ih =>
    cases i with
    | zero =>
      cases here
      simp [pass]
    | succ i => cases px : p x <;> simpa [px] using ih here

theorem filter_set_of_pass (here : xs[i]? = some a) (pass : p a = true) (pass' : p b = true) :
    (xs.set i b).filter p = (xs.filter p).set ((xs.take i).countP p) b := by
  induction xs generalizing i with
  | nil => cases here
  | cons x xs ih =>
    cases i with
    | zero =>
      cases here
      simp [pass, pass']
    | succ i => cases px : p x <;> simpa [px] using ih here

theorem filter_set_of_not (here : xs[i]? = some a) (stop : p a = false) (stop' : p b = false) :
    (xs.set i b).filter p = xs.filter p := by
  induction xs generalizing i with
  | nil => cases here
  | cons x xs ih =>
    cases i with
    | zero =>
      cases here
      simp [stop, stop']
    | succ i => cases px : p x <;> simpa [px] using ih here

end

namespace Hub

variable {h : Hub} {y : ListenerAction} {w : Worker} {id : Nat}

/-! ## Erasing -/

def listeners (h : Hub) : List Listener := h.workers.map Worker.listener

/-- The new place of a worker, if its listener is not gone. -/
def place? (gone : Listener → Bool) (ls : List Listener) (id : Nat) : Option Nat :=
  if (ls[id]?).any fun l => !gone l then some ((ls.take id).countP fun l => !gone l) else none

def remaining? (gone : Listener → Bool) (kept : Nat → Bool) (ls : List Listener) (d : Delivery) :
    Option Delivery :=
  (place? gone ls d.worker).map fun id => ⟨id, d.event.renumber kept⟩

/-- The hub without the listeners that are gone, and with new numbers for the events kept. -/
def erase (gone : Listener → Bool) (kept : Nat → Bool) (h : Hub) : Hub where
  queueOverride? := h.queueOverride?
  journal := (Event.remaining kept h.journal.toList).toArray
  bus := { h.bus with stream := (Event.remaining kept h.bus.stream.toList).toArray }
  workers := (h.workers.filter fun w => !gone w.listener).map (Worker.renumber kept)
  deliveries := (h.deliveries.toList.filterMap (remaining? gone kept h.listeners)).toArray

theorem renumber_next (numbered : h.Numbered) (gone : Listener → Bool) (kept : Nat → Bool)
    (n : Notice) :
    (h.next n).renumber kept = (h.erase gone kept).next n := by
  have size : (h.erase gone kept).journal.size = newNumber kept h.journal.size := by
    simp only [erase, List.size_toArray]
    exact Event.length_remaining numbered
  simp [next, Event.renumber, size]

/-- An event that is kept is created in the remains as well. -/
theorem erase_publish_kept (numbered : h.Numbered) (n : Notice)
    (remains : kept h.journal.size = true) :
    (h.publish n).erase gone kept = (h.erase gone kept).publish n := by
  have next_eq := renumber_next numbered gone kept n
  simp only [publish, ← next_eq]
  simp [erase, Bus.publish, Event.remaining_push_kept, next, remains, listeners]

/-- An event that is not kept does nothing to the remains. -/
theorem erase_publish_gone (h : Hub) (n : Notice) (lost : kept h.journal.size = false) :
    (h.publish n).erase gone kept = h.erase gone kept := by
  simp [publish, erase, Bus.publish, Event.remaining_push_gone, next, lost, listeners]

theorem erase_map {f g : Worker → Worker} (listener : ∀ w, (f w).listener = w.listener)
    (alike : ∀ w, gone w.listener = false → (f w).renumber kept = g (w.renumber kept)) (h : Hub) :
    { h with workers := h.workers.map f }.erase gone kept =
      { h.erase gone kept with workers := (h.erase gone kept).workers.map g } := by
  have same : { h with workers := h.workers.map f }.listeners = h.listeners := by
    simp [listeners, listener]
  have workers : ((h.workers.map f).filter fun w => !gone w.listener).map (Worker.renumber kept) =
      ((h.workers.filter fun w => !gone w.listener).map (Worker.renumber kept)).map g := by
    simp only [List.filter_map, List.map_map, Function.comp_def, listener]
    refine List.map_congr_left fun w remains => alike w ?_
    simpa using (List.mem_filter.1 remains).2
  simp only [erase, same, workers]

/-! ## The step of a worker -/

theorem place?_of_gone (worker : h.workers[id]? = some w) (lost : gone w.listener = true) :
    place? gone h.listeners id = none := by
  simp [place?, listeners, worker, lost]

theorem place?_of_remains (worker : h.workers[id]? = some w) (remains : gone w.listener = false) :
    place? gone h.listeners id = some ((h.workers.take id).countP fun w => !gone w.listener) := by
  simp [place?, listeners, worker, remains, ← List.map_take, List.countP_map, Function.comp_def]

theorem place?_of_none (nobody : h.workers[id]? = none) : place? gone h.listeners id = none := by
  simp [place?, listeners, nobody]

theorem place?_eq_some_iff {place : Nat} (worker : h.workers[id]? = some w) :
    place? gone h.listeners id = some place ↔ gone w.listener = false ∧
      (h.workers.take id).countP (fun w => !gone w.listener) = place := by
  cases lost : gone w.listener with
  | true => simp [place?_of_gone worker lost]
  | false => simp [place?_of_remains worker lost]

theorem worker_erase {place : Nat} (worker : h.workers[id]? = some w)
    (found : place? gone h.listeners id = some place) :
    (h.erase gone kept).workers[place]? = some (w.renumber kept) := by
  obtain ⟨remains, rfl⟩ := (place?_eq_some_iff worker).1 found
  rw [erase, List.getElem?_map, getElem?_filter_countP worker (by simp [remains]), Option.map_some]

theorem listeners_setWorker {w' : Worker} (worker : h.workers[id]? = some w)
    (own : w'.listener = w.listener) : (h.setWorker id w').listeners = h.listeners := by
  obtain ⟨known, rfl⟩ := List.getElem?_eq_some_iff.1 worker
  rw [listeners, setWorker, List.map_set, own, ← List.getElem_map Worker.listener (h := by simpa),
    List.set_getElem_self, listeners]

theorem erase_setWorker_kept {w' : Worker} {place : Nat} (worker : h.workers[id]? = some w)
    (own : w'.listener = w.listener) (found : place? gone h.listeners id = some place)
    (kept : Nat → Bool) :
    (h.setWorker id w').erase gone kept =
      (h.erase gone kept).setWorker place (w'.renumber kept) := by
  obtain ⟨remains, rfl⟩ := (place?_eq_some_iff worker).1 found
  have workers := filter_set_of_pass (p := fun w : Worker => !gone w.listener) (b := w') worker
    (by simp [remains]) (by simp [own, remains])
  simp only [erase, listeners_setWorker worker own]
  simp only [setWorker, workers, List.map_set]

theorem erase_setWorker_gone {w' : Worker} (worker : h.workers[id]? = some w)
    (own : w'.listener = w.listener) (lost : gone w.listener = true) (kept : Nat → Bool) :
    (h.setWorker id w').erase gone kept = h.erase gone kept := by
  have workers := filter_set_of_not (p := fun w : Worker => !gone w.listener) (b := w') worker
    (by simp [lost]) (by simp [own, lost])
  simp only [erase, listeners_setWorker worker own]
  simp only [setWorker, workers]

theorem erase_begin (h : Hub) (d : Delivery) :
    (h.begin d).erase gone kept =
      (remaining? gone kept h.listeners d).elim (h.erase gone kept) (h.erase gone kept).begin := by
  have same : (h.begin d).listeners = h.listeners := rfl
  simp only [erase, same]
  cases left : remaining? gone kept h.listeners d with
  | none => simp [begin, left]
  | some d' => simp [begin, left]

variable {r : Worker.Effect}

theorem erase_settle_kept {place : Nat} (worker : h.workers[id]? = some w)
    (own : r.worker.listener = w.listener) (found : place? gone h.listeners id = some place)
    (kept : Nat → Bool) :
    (h.settle id r).erase gone kept = (h.erase gone kept).settle place (r.renumber kept) := by
  have set := erase_setWorker_kept worker own found kept
  have same := listeners_setWorker worker own
  cases begins : r.begun? with
  | none => simpa [settle, Worker.Effect.renumber, begins] using set
  | some e =>
    simp [settle, Worker.Effect.renumber, begins, erase_begin, same, remaining?, found, set]

theorem erase_settle_gone (worker : h.workers[id]? = some w)
    (own : r.worker.listener = w.listener) (lost : gone w.listener = true) :
    (h.settle id r).erase gone kept = h.erase gone kept := by
  have set := erase_setWorker_gone worker own lost kept
  have same := listeners_setWorker worker own
  cases begins : r.begun? with
  | none => simpa [settle, begins] using set
  | some e => simp [settle, begins, erase_begin, same, remaining?, place?_of_gone worker lost, set]

/-- The step of a worker that remains is its step at its new place. -/
theorem erase_put_kept {place : Nat} (numbered : h.Numbered) (worker : h.workers[id]? = some w)
    (own : r.worker.listener = w.listener) (found : place? gone h.listeners id = some place)
    (remains : ∀ n, r.told? = some n → kept h.journal.size = true) :
    (h.put id r).erase gone kept = (h.erase gone kept).put place (r.renumber kept) := by
  have settled := erase_settle_kept worker own found kept
  have told : (r.renumber kept).told? = r.told? := rfl
  rw [put, put, told, ← settled]
  cases tells : r.told? with
  | none => rfl
  | some n =>
    refine erase_publish_kept ?_ n ?_
    · rwa [Numbered, journal_settle]
    · rw [journal_settle]
      exact remains n tells

theorem erase_put_gone (worker : h.workers[id]? = some w)
    (own : r.worker.listener = w.listener) (lost : gone w.listener = true)
    (unseen : ∀ n, r.told? = some n → kept h.journal.size = false) :
    (h.put id r).erase gone kept = h.erase gone kept := by
  rw [put]
  cases tells : r.told? with
  | none => exact erase_settle_gone worker own lost
  | some n =>
    refine (erase_publish_gone _ n ?_).trans (erase_settle_gone worker own lost)
    rw [journal_settle]
    exact unseen n tells

/-! ## What is left of an action -/

/-- What is left of an action on the listeners: nothing, if it is about a listener that is gone or
taken by a worker that is gone or was never there. -/
def remainingAction? (gone : Listener → Bool) (h : Hub) (y : ListenerAction) :
    Option ListenerAction :=
  match y with
  | .add l | .remove l => if gone l then none else some y
  | .close => some y
  | .take id | .returned id | .panicked id _ | .die id | .exit id =>
    (place? gone h.listeners id).map y.takenAt

theorem remains_of_remainingAction? {z : ListenerAction} {l : Listener}
    (left : h.remainingAction? gone y = some z) (names : z = .add l ∨ z = .remove l) :
    gone l = false := by
  cases y with
  | add l' | remove l' =>
    simp only [remainingAction?] at left
    split at left
    · cases left
    · next remains =>
      cases left
      rcases names with own | own <;> cases own
      exact Bool.eq_false_iff.2 remains
  | close =>
    cases left
    rcases names with own | own <;> cases own
  | take | returned | panicked | die | exit =>
    obtain ⟨place, -, rfl⟩ := Option.map_eq_some_iff.1 left
    rcases names with own | own <;> cases own

/-- The events numbered from `n` on are about these; those that are not about a listener that is
gone are kept. -/
def Spares (gone : Listener → Bool) (kept : Nat → Bool) (n : Nat) (about : List (Option Listener)) :
    Prop :=
  ∀ i s, about[i]? = some s → kept (n + i) = !s.any gone

/-- From `h` to `h'` there came events about these, in this order. -/
def Creates (h h' : Hub) (about : List (Option Listener)) : Prop :=
  ∃ es, h'.journal.toList = h.journal.toList ++ es ∧ List.Forall₂ Event.About es about

/-- While the hub became `h'`, what remains of it did as `f` says, whoever is gone. -/
def Commutes (h h' : Hub) (f : (Listener → Bool) → Hub → Hub) : Prop :=
  ∃ about, h.Creates h' about ∧ ∀ gone kept, Spares gone kept h.journal.size about →
    h'.erase gone kept = f gone (h.erase gone kept)

variable {n : Nat} {s : Option Listener} {about about' : List (Option Listener)} {h' h'' : Hub}

theorem spares_cons : Spares gone kept n (s :: about) ↔
    kept n = !s.any gone ∧ Spares gone kept (n + 1) about := by
  constructor
  · intro spares
    refine ⟨spares 0 s rfl, fun i t own => ?_⟩
    rw [Nat.add_assoc, Nat.add_comm 1 i]
    exact spares (i + 1) t own
  · rintro ⟨first, rest⟩ i t own
    cases i with
    | zero => cases own; exact first
    | succ i =>
      rw [Nat.add_comm i 1, ← Nat.add_assoc]
      exact rest i t own

theorem spares_append : Spares gone kept n (about ++ about') ↔
    Spares gone kept n about ∧ Spares gone kept (n + about.length) about' := by
  induction about generalizing n with
  | nil => simp [Spares]
  | cons s about ih =>
    rw [List.cons_append, spares_cons, spares_cons, ih, List.length_cons, and_assoc]
    have : n + 1 + about.length = n + (about.length + 1) := by omega
    rw [this]

theorem Creates.refl (h : Hub) : h.Creates h [] := ⟨[], by simp, .nil⟩

theorem Creates.size (created : h.Creates h' about) :
    h'.journal.size = h.journal.size + about.length := by
  obtain ⟨es, journal, each⟩ := created
  rw [← Array.length_toList, journal, List.length_append, Array.length_toList, each.length_eq]

theorem Creates.trans (created : h.Creates h' about) (later : h'.Creates h'' about') :
    h.Creates h'' (about ++ about') := by
  obtain ⟨es, journal, each⟩ := created
  obtain ⟨es', journal', each'⟩ := later
  refine ⟨es ++ es', by rw [journal', journal, List.append_assoc], ?_⟩
  exact List.rel_append each each'

theorem creates_publish {n : Notice} {s : Option Listener} (own : (h.next n).About s) :
    h.Creates (h.publish n) [s] :=
  ⟨[h.next n], by simp [journal_publish], .cons own .nil⟩

/-- Nothing is created, so nothing depends on the numbers. -/
theorem Commutes.of_journal {f : (Listener → Bool) → Hub → Hub} (journal : h'.journal = h.journal)
    (alike : ∀ gone kept, h'.erase gone kept = f gone (h.erase gone kept)) : h.Commutes h' f :=
  ⟨[], ⟨[], by simp [journal], .nil⟩, fun gone kept _ => alike gone kept⟩

/-! ## Actions on the listeners -/

theorem stepListeners_takenAt {place : Nat} (own : y.worker? = some id)
    (worker : h.workers[id]? = some w) (found : place? gone h.listeners id = some place) :
    (h.erase gone kept).stepListeners (y.takenAt place) =
      ((w.act? y).map (Worker.Effect.renumber kept)).elim (h.erase gone kept)
        ((h.erase gone kept).put place) := by
  rw [stepListeners_eq_put (y.worker?_takenAt own place), worker_erase worker found,
    Option.bind_some, Worker.act?_takenAt, Worker.act?_renumber]

theorem creates_put (effect : r.Of w) (h : Hub) (id : Nat) :
    h.Creates (h.put id r) (r.told?.map fun _ => some w.listener).toList := by
  rw [put]
  cases tells : r.told? with
  | none => exact ⟨[], by simp, .nil⟩
  | some n =>
    refine ⟨[(h.settle id r).next n], by simp [journal_publish], .cons ?_ .nil⟩
    exact effect.told n tells

/-- Each worker's step is seen in the remains if the worker remains. -/
theorem erase_act (numbered : h.Numbered) (own : y.worker? = some id) :
    h.Commutes (h.stepListeners y) fun gone g =>
      ((place? gone h.listeners id).map y.takenAt).elim g g.stepListeners := by
  rw [stepListeners_eq_put own]
  cases worker : h.workers[id]? with
  | none =>
    refine .of_journal rfl fun gone kept => ?_
    rw [place?_of_none worker]
    rfl
  | some w =>
    cases acts : w.act? y with
    | none =>
      refine .of_journal (by simp [acts]) fun gone kept => ?_
      cases found : place? gone h.listeners id with
      | none => simp [acts]
      | some place => simp [acts, stepListeners_takenAt own worker found]
    | some r =>
      have effect := Worker.effect_of_act? acts
      simp only [Option.bind_some, acts, Option.elim_some]
      refine ⟨_, creates_put effect h id, fun gone kept spares => ?_⟩
      -- The bus is told of a panic exactly where it is told in the remains.
      have told : ∀ n, r.told? = some n → kept h.journal.size = !gone w.listener := by
        intro n tells
        rw [tells] at spares
        exact spares 0 _ rfl
      cases lost : gone w.listener with
      | true =>
        simp only [place?_of_gone worker lost, Option.map_none, Option.elim_none]
        refine erase_put_gone worker effect.listener lost fun n tells => ?_
        rw [told n tells, lost]
        rfl
      | false =>
        have found := place?_of_remains worker lost
        simp only [found, Option.map_some, Option.elim_some]
        rw [stepListeners_takenAt own worker found, acts]
        refine erase_put_kept numbered worker effect.listener found fun n tells => ?_
        rw [told n tells, lost]
        rfl

theorem contains_erase {l : Listener} (remains : gone l = false) :
    (h.erase gone kept).contains l = h.contains l := by
  simp only [contains, erase, List.any_map, List.any_filter]
  congr 1
  funext w
  by_cases own : w.listener = l
  · simp [own, remains]
  · simp [own]

theorem place?_append {ls : List Listener} {id : Nat} (known : id < ls.length) (l : Listener) :
    place? gone (ls ++ [l]) id = place? gone ls id := by
  rw [place?, place?, List.getElem?_append_left known,
    List.take_append_of_le_length (Nat.le_of_lt known)]

theorem erase_enter {w : Worker} (known : h.Known) :
    { h with workers := h.workers ++ [w] }.erase gone kept =
      if gone w.listener then h.erase gone kept
      else { h.erase gone kept with
        workers := (h.erase gone kept).workers ++ [w.renumber kept] } := by
  have listeners_eq : { h with workers := h.workers ++ [w] }.listeners =
      h.listeners ++ [w.listener] := by simp [listeners]
  have deliveries : h.deliveries.toList.filterMap
      (remaining? gone kept (h.listeners ++ [w.listener])) =
      h.deliveries.toList.filterMap (remaining? gone kept h.listeners) := by
    refine List.filterMap_congr fun d made => ?_
    rw [remaining?, remaining?, place?_append]
    simpa [listeners] using known d made
  cases lost : gone w.listener <;>
    simp [erase, listeners_eq, deliveries, List.filter_append, lost]

theorem erase_add (known : h.Known) (l : Listener) :
    (h.add l).erase gone kept = if gone l then h.erase gone kept else (h.erase gone kept).add l := by
  unfold add
  cases lost : gone l with
  | true =>
    split
    · simp
    · rw [erase_enter known]
      simp [Worker.create, lost]
  | false =>
    rw [contains_erase lost]
    split
    · simp
    · rw [erase_enter known]
      simp [Worker.create, lost, Worker.renumber, WorkerStatus.renumber, erase]

theorem erase_remove (h : Hub) (l : Listener) :
    (h.remove l).erase gone kept =
      if gone l then h.erase gone kept else (h.erase gone kept).remove l := by
  have listener : ∀ w : Worker, (if w.listener = l then w.detach else w).listener = w.listener :=
    fun w => by split <;> rfl
  cases lost : gone l with
  | true =>
    rw [remove, erase_map (g := id) listener]
    · simp
    · intro w remains
      have other : w.listener ≠ l := fun own => by simp [own, lost] at remains
      simp [other]
  | false =>
    rw [remove, erase_map listener]
    · rfl
    · intro w _
      by_cases own : w.listener = l
      · simp [own, Worker.detach, Worker.renumber]
      · simp [own]

theorem erase_close (h : Hub) : h.close.erase gone kept = (h.erase gone kept).close :=
  erase_map (f := Worker.detach) (g := Worker.detach) (fun _ => rfl) (fun _ _ => rfl) h

/-- **Whatever is done on the listeners is done on the remains as far as it is left.** -/
theorem erase_stepListeners (numbered : h.Numbered) (known : h.Known) (y : ListenerAction) :
    h.Commutes (h.stepListeners y) fun gone g =>
      (h.remainingAction? gone y).elim g g.stepListeners := by
  cases y with
  | add l =>
    refine .of_journal ?_ fun gone kept => ?_
    · simp only [stepListeners, add]
      split <;> rfl
    · rw [stepListeners, erase_add known, remainingAction?]
      split <;> rfl
  | remove l =>
    refine .of_journal rfl fun gone kept => ?_
    rw [stepListeners, erase_remove, remainingAction?]
    split <;> rfl
  | close => exact .of_journal rfl fun gone kept => erase_close h
  | take | returned | panicked | die | exit => exact erase_act numbered rfl

/-! ## Emitting -/

theorem erase_announce {e : Event} (remains : kept e.seq = true) (h : Hub) :
    (h.announce e).erase gone kept = (h.erase gone kept).announce (e.renumber kept) := by
  simp [announce, erase, Bus.publish, Event.remaining_push_kept remains, listeners]

theorem erase_offer (numbered : h.Numbered) (n : Notice) (remains : kept h.journal.size = true) :
    (h.offer n).erase gone kept = (h.erase gone kept).offer n := by
  let created : Hub := { h with journal := h.journal.push (h.next n) }
  have next_eq := renumber_next numbered gone kept n
  have journal : created.erase gone kept = { h.erase gone kept with
      journal := (h.erase gone kept).journal.push ((h.erase gone kept).next n) } := by
    rw [← next_eq]
    simp [created, erase, Event.remaining_push_kept, next, remains, listeners]
  calc (h.offer n).erase gone kept
      = { created.erase gone kept with
          workers := (created.erase gone kept).workers.map fun w =>
            w.offer ((h.next n).renumber kept) } :=
        erase_map (fun w => w.listener_offer (h.next n))
          (fun w _ => w.renumber_offer (h.next n)) created
    _ = (h.erase gone kept).offer n := by rw [journal, next_eq]; rfl

/-- The listeners of the workers that drop an event. -/
def refusing (ws : List Worker) : List (Option Listener) :=
  (ws.filter fun w => w.dropNotice?.isSome).map fun w => some w.listener

theorem creates_drops (ws : List Worker) (h : Hub) :
    h.Creates ((ws.filterMap Worker.dropNotice?).foldl publish h) (refusing ws) := by
  induction ws generalizing h with
  | nil => exact .refl h
  | cons w ws ih =>
    cases drop : w.dropNotice? with
    | none => simpa [refusing, drop] using ih h
    | some n =>
      have own : (h.next n).About (some w.listener) := Worker.told_of_dropNotice? drop
      simpa [refusing, drop] using (creates_publish own).trans (ih (h.publish n))

/-- The drops of the members that remain are told in the remains as well, and no others. -/
theorem erase_drops (ws : List Worker) (numbered : h.Numbered)
    (spares : Spares gone kept h.journal.size (refusing ws)) :
    ((ws.filterMap Worker.dropNotice?).foldl publish h).erase gone kept =
      (((ws.filter fun w => !gone w.listener).map (Worker.renumber kept)).filterMap
        Worker.dropNotice?).foldl publish (h.erase gone kept) := by
  induction ws generalizing h with
  | nil => rfl
  | cons w ws ih =>
    cases drop : w.dropNotice? with
    | none =>
      have same : refusing (w :: ws) = refusing ws := by simp [refusing, drop]
      have rest := ih numbered (same ▸ spares)
      cases lost : gone w.listener <;> simpa [drop, lost] using rest
    | some n =>
      have one : refusing (w :: ws) = some w.listener :: refusing ws := by simp [refusing, drop]
      rw [one, spares_cons] at spares
      have rest := ih (numbered.publish n) (by simpa [publish] using spares.2)
      cases lost : gone w.listener with
      | true =>
        rw [erase_publish_gone h n (by simpa [lost] using spares.1)] at rest
        simpa [drop, lost] using rest
      | false =>
        rw [erase_publish_kept numbered n (by simpa [lost] using spares.1)] at rest
        simpa [drop, lost] using rest

/-- **An emission is an emission of the remains.** -/
theorem erase_emit (numbered : h.Numbered) {n : Notice}
    (server : n.kind.isSubscriberEvent = false) :
    h.Commutes (h.emit n) fun _ g => g.emit n := by
  have offered : h.Creates (h.offer n) [none] :=
    ⟨[h.next n], by simp [offer], .cons server .nil⟩
  refine ⟨[none] ++ refusing h.workers, offered.trans (creates_drops h.workers _), ?_⟩
  intro gone kept spares
  obtain ⟨first, rest⟩ := spares_cons.1 spares
  have size : (h.offer n).journal.size = h.journal.size + 1 := offered.size
  have workers : (h.erase gone kept).workers =
      (h.workers.filter fun w => !gone w.listener).map (Worker.renumber kept) := rfl
  calc (h.emit n).erase gone kept
      = (((h.workers.filterMap Worker.dropNotice?).foldl publish (h.offer n)).erase gone
          kept).announce ((h.next n).renumber kept) := erase_announce first _
    _ = (h.erase gone kept).emit n := by
      rw [erase_drops h.workers (numbered.push rfl) (size ▸ rest), erase_offer numbered n first,
        renumber_next numbered gone, emit_eq, workers]

/-! ## Creation -/

theorem erase_create (gone : Listener → Bool) (kept : Nat → Bool) (busCapacity : Nat)
    (queueOverride? : Option Nat) (ls : List Listener) :
    (create busCapacity queueOverride? ls).erase gone kept =
      create busCapacity queueOverride? (ls.filter fun l => !gone l) := by
  induction ls using List.reverseRecOn with
  | nil => rfl
  | append_singleton ls l ih =>
    have known := (recorded_create busCapacity queueOverride? ls).known
    simp only [create, List.foldl_append, List.foldl_cons, List.foldl_nil] at ih known ⊢
    rw [erase_add known, ih, List.filter_append]
    cases lost : gone l <;> simp [lost]

/-! ## What is heard -/

theorem heard_erase {gone : Listener → Bool} {l : Listener} (remains : gone l = false)
    (kept : Nat → Bool) (h : Hub) :
    ((h.erase gone kept).heard l).map Delivery.event =
      ((h.heard l).map Delivery.event).map (Event.renumber kept) := by
  have deliveries : (h.erase gone kept).deliveries.toList =
      h.deliveries.toList.filterMap (remaining? gone kept h.listeners) := rfl
  rw [heard, heard, deliveries]
  induction h.deliveries.toList with
  | nil => rfl
  | cons d ds ih =>
    cases worker : h.workers[d.worker]? with
    | none => simpa [remaining?, place?_of_none worker, listener?, worker] using ih
    | some w =>
      cases lost : gone w.listener with
      | true =>
        have other : w.listener ≠ l := fun own => by simp [own, remains] at lost
        simpa [remaining?, place?_of_gone worker lost, listener?, worker, other] using ih
      | false =>
        have found := place?_of_remains worker lost
        have own : (h.erase gone kept).listener? ((h.workers.take d.worker).countP fun w =>
            !gone w.listener) = h.listener? d.worker := by
          rw [listener?, listener?, worker_erase worker found, worker]
          rfl
        by_cases heard : h.listener? d.worker = some l <;>
          simpa [remaining?, found, own, heard] using ih

end Hub

end Quiesce
