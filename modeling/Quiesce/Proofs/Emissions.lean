import Quiesce.Proofs.Closing
import Quiesce.Proofs.Marks
/-!
# What is emitted while a listener is a member

Of all that happens to a controller its hub takes part in the listeners' actions and the emissions
(`hubHistory`). This history of the hub leads to the hub that the controller has, and what is
emitted in it are the events about the server (`hub_after`). So whatever is known of the histories
of hubs is known of the controller's.

In such a history every worker has an account from the beginning (`account_of_worker`). A worker
that is not broken has refused events for lack of room only (`full_of_refused`); when there was
always room, its account is what was emitted while its listener was a member (`trail_eq_emitted`).
-/

namespace Quiesce

namespace Hub

variable {h : Hub} {n : Notice}

/-! ## Events about the server -/

/-- The events that do not tell of a listener. -/
def serverEvents (h : Hub) : List Event :=
  h.journal.toList.filter fun e => !e.kind.isSubscriberEvent

theorem serverEvents_emit (server : n.kind.isSubscriberEvent = false) :
    (h.emit n).serverEvents = h.serverEvents ++ [h.next n] := by
  obtain ⟨drops, journal, about⟩ := journal_emit h n
  have rest : drops.filter (fun e => !e.kind.isSubscriberEvent) = [] := by
    rw [List.filter_eq_nil_iff]
    intro e dropped
    rw [about e dropped]
    decide
  have own : (h.next n).kind.isSubscriberEvent = false := server
  rw [serverEvents, journal, List.filter_append, List.filter_cons, rest, own]
  rfl

theorem serverEvents_stepListeners (h : Hub) (y : ListenerAction) :
    (h.stepListeners y).serverEvents = h.serverEvents := by
  rcases journal_stepListeners h y with same | ⟨name, info, journal⟩
  · rw [serverEvents, same, serverEvents]
  · have panic : (h.next (.panicked name info)).kind.isSubscriberEvent = true := rfl
    rw [serverEvents, journal, Array.toList_push, List.filter_append, List.filter_cons, panic]
    exact List.append_nil _

theorem emissions_append (h : Hub) (earlier later : List HubAction) :
    h.emissions (earlier ++ later) = h.emissions earlier ++ (h.after earlier).emissions later := by
  induction earlier generalizing h with
  | nil => rfl
  | cons x earlier ih => simp [emissions, ih]

theorem emissions_admissions (ls : List Listener) (h : Hub) :
    h.emissions (ls.map (.listeners <| .add ·)) = [] := by
  induction ls generalizing h with
  | nil => rfl
  | cons l ls ih => exact ih _

end Hub

/-! ## The hub's part in a history -/

namespace Controller

variable {x : Action}

/-- What an action does to the hub, if anything. Of the events that an emission creates the first is
the one emitted, the others tell of the drops. -/
def hubAction? (c : Controller) : Action → Option HubAction
  | .listeners y => some (.listeners y)
  | x => (c.created (c.step x)).head?.map fun e => .emit e.toNotice

/-- What happens to the hub in the course of a history. -/
def hubHistory (c : Controller) : List Action → List HubAction
  | [] => []
  | x :: later => (c.hubAction? x).toList ++ (c.step x).hubHistory later

theorem hubAction?_of_ne (server : ∀ y, x ≠ .listeners y) (c : Controller) :
    c.hubAction? x = (c.created (c.step x)).head?.map fun e => .emit e.toNotice := by
  cases x with
  | listeners y => exact absurd rfl (server y)
  | _ => rfl

theorem hub_step (c : Controller) (x : Action) :
    (c.step x).hub = c.hub.after (c.hubAction? x).toList ∧
      (c.step x).hub.serverEvents =
        c.hub.serverEvents ++ c.hub.emissions (c.hubAction? x).toList := by
  by_cases server : ∀ y, x ≠ .listeners y
  · rw [hubAction?_of_ne server]
    rcases (step_spec c x).hub with same | ⟨n, -, about, emits⟩ | ⟨y, own, -⟩
    · have nothing : c.created (c.step x) = [] := created_of_journal (by simp [same])
      rw [nothing, same]
      exact ⟨rfl, (List.append_nil _).symm⟩
    · obtain ⟨drops, journal, -⟩ := Hub.journal_emit c.hub n
      rw [created_of_journal (emits ▸ journal), emits]
      exact ⟨rfl, Hub.serverEvents_emit about⟩
    · exact absurd own (server y)
  · simp only [ne_eq, not_forall, not_not] at server
    obtain ⟨y, rfl⟩ := server
    exact ⟨rfl, (Hub.serverEvents_stepListeners c.hub y).trans (List.append_nil _).symm⟩

/-- **The hub of a controller has a history of its own**, and in this history the events about the
server are emitted. -/
theorem hub_after (c : Controller) (history : List Action) :
    (c.after history).hub = c.hub.after (c.hubHistory history) ∧
      (c.after history).hub.serverEvents =
        c.hub.serverEvents ++ c.hub.emissions (c.hubHistory history) := by
  induction history generalizing c with
  | nil => exact ⟨rfl, (List.append_nil _).symm⟩
  | cons x later ih =>
    obtain ⟨hub, events⟩ := hub_step c x
    obtain ⟨hub', events'⟩ := ih (c.step x)
    rw [after_cons, hubHistory, Hub.after_append, Hub.emissions_append, ← hub, ← List.append_assoc,
      ← events]
    exact ⟨hub', events'⟩

theorem hub_after_create (config : Config) (listeners : List Listener) (history : List Action) :
    let c := (create config listeners).after history
    let h₀ := Hub.create config.effectiveBusCapacity config.queueOverride? []
    let past := listeners.map (.listeners <| .add ·) ++ (create config listeners).hubHistory history
    c.hub = h₀.after past ∧ c.hub.serverEvents = h₀.emissions past := by
  intro c h₀ past
  have start : (create config listeners).hub = h₀.after (listeners.map (.listeners <| .add ·)) :=
    Hub.create_eq_after _ _ listeners
  have nothing : (create config listeners).hub.serverEvents = [] := by
    rw [Hub.serverEvents, (new_create config listeners).journal]
    rfl
  obtain ⟨hub, events⟩ := hub_after (create config listeners) history
  rw [nothing, List.nil_append] at events
  rw [Hub.after_append, Hub.emissions_append, Hub.emissions_admissions, ← start]
  exact ⟨hub, events⟩

end Controller

namespace Hub

variable {h : Hub} {p : Hub → Bool} {id : Nat} {w : Worker} {e : Event} {l : Listener}
  {later past : List HubAction} {busCapacity : Nat} {queueOverride? : Option Nat}

/-! ## Emissions -/

/-- The events that are emitted in the course of a history at the times when the hub is as `p`
says. -/
def emittedWhile (h : Hub) (p : Hub → Bool) : List HubAction → List Event
  | [] => []
  | x :: later =>
    (if p h then (h.offered? x).toList else []) ++ (h.step x).emittedWhile p later

theorem emittedWhile_sublist (h : Hub) (p : Hub → Bool) (later : List HubAction) :
    (h.emittedWhile p later).Sublist (h.emissions later) := by
  induction later generalizing h with
  | nil => exact .slnil
  | cons x later ih =>
    refine List.Sublist.append ?_ (ih _)
    split
    · exact List.Sublist.refl _
    · exact List.nil_sublist _

theorem emittedWhile_ordered (h : Hub) (p : Hub → Bool) (later : List HubAction) :
    (h.emittedWhile p later).Pairwise fun e f => e.seq < f.seq :=
  (emissions_ordered h later).sublist (emittedWhile_sublist h p later)

theorem mem_emittedWhile : e ∈ h.emittedWhile p later ↔ ∃ before x rest,
    later = before ++ x :: rest ∧ p (h.after before) = true ∧
      (h.after before).offered? x = some e := by
  induction later generalizing h with
  | nil => simp [emittedWhile]
  | cons x later ih =>
    rw [emittedWhile, List.mem_append, ih]
    constructor
    · rintro (now | ⟨before, y, rest, rfl, holds, offered⟩)
      · split at now
        · next holds => exact ⟨[], x, later, rfl, holds, Option.mem_toList.1 now⟩
        · cases now
      · exact ⟨x :: before, y, rest, rfl, holds, offered⟩
    · rintro ⟨before, y, rest, split, holds, offered⟩
      cases before with
      | nil =>
        cases split
        rw [after_nil] at holds offered
        rw [if_pos holds]
        exact .inl (Option.mem_toList.2 offered)
      | cons z before =>
        cases split
        exact .inr ⟨before, y, rest, rfl, holds, offered⟩

/-- To a worker everything is offered that is emitted while its listener is a member. -/
theorem map_offers (h : Hub) (id : Nat) (later : List HubAction) :
    (h.offers id later).map (·.1) = h.emittedWhile (·.members.contains id) later := by
  induction later generalizing h with
  | nil => rfl
  | cons x later ih =>
    rw [offers, emittedWhile, List.map_append, ih]
    congr 1
    cases worker : h.workers[id]? with
    | none =>
      have absent : id ∉ h.members := fun member => by
        obtain ⟨w, there, -⟩ := mem_members.1 member
        rw [worker] at there
        cases there
      simp [offer?, worker, absent]
    | some w =>
      have member : id ∈ h.members ↔ w.attached = true := by simp [mem_members, worker]
      rw [offer?_eq worker]
      cases h.offered? x <;> cases attached : w.attached <;> simp [member, attached]

/-! ## The accounts of all workers -/

theorem offers_of_length_le (new : (h.after past).workers.length ≤ id) : h.offers id past = [] := by
  induction past using List.reverseRecOn with
  | nil => rfl
  | append_singleton past x ih =>
    rw [after_concat] at new
    have grows : (h.after past).workers.length ≤ id := by
      rcases length_workers_step (h.after past) x with same | ⟨l, -, -, workers⟩
      · exact same ▸ new
      · rw [workers, List.length_append] at new
        exact Nat.le_of_add_right_le new
    rw [offers_append, ih grows]
    simp [offers, offer?, List.getElem?_eq_none grows]

/-- **Each worker has an account of all that it was offered.** -/
theorem account_of_worker
    (worker : ((create busCapacity queueOverride? []).after past).workers[id]? = some w) :
    ∃ lost, ((create busCapacity queueOverride? []).after past).Account id
      (acceptedOf ((create busCapacity queueOverride? []).offers id past)) lost w := by
  induction past using List.reverseRecOn generalizing w with
  | nil => cases worker
  | append_singleton past x ih =>
    rw [after_concat] at worker
    rw [offers_append, acceptedOf_append, offers, offers, List.append_nil]
    rcases worker_origin worker with ⟨v, es, there, -, s⟩ | ⟨l, rfl, absent, rfl, rfl⟩
    · obtain ⟨lost, account⟩ := ih there
      obtain ⟨w', lost', account', -⟩ := account.step x
      obtain rfl : w' = w := Option.some.inj (account'.worker.symm.trans worker)
      rw [after_concat]
      exact ⟨lost', account'⟩
    · rw [offers_of_length_le (Nat.le_refl _), offer?_of_silent rfl, queueOverride?_after]
      exact ⟨[], account_of_add absent⟩

/-- A worker that is not broken has refused events for lack of room only. -/
theorem full_of_refused
    (worker : ((create busCapacity queueOverride? []).after past).workers[id]? = some w)
    (unbroken : w.status ≠ .dead) :
    ∀ o ∈ (create busCapacity queueOverride? []).offers id past,
      o.2 = none ∨ o.2 = some .full := by
  induction past using List.reverseRecOn generalizing w with
  | nil => simp [offers]
  | append_singleton past x ih =>
    rw [after_concat] at worker
    rw [offers_append, offers, offers, List.append_nil]
    intro o offer
    rcases worker_origin worker with ⟨v, es, there, -, s⟩ | ⟨l, rfl, -, rfl, -⟩
    · have before : v.status ≠ .dead := fun dead => unbroken (s.of_dead there dead).1
      rcases List.mem_append.1 offer with earlier | now
      · exact ih there before o earlier
      · obtain ⟨lost, account⟩ := account_of_worker there
        rw [Option.mem_toList, offer?_eq there] at now
        obtain ⟨e, -, answer⟩ := Option.bind_eq_some_iff.1 now
        split at answer
        · next attached =>
          cases answer
          rw [account.sound.refusal?_eq attached, Worker.answer?, if_neg before]
          split <;> simp
        · cases answer
    · rw [offers_of_length_le (Nat.le_refl _), offer?_of_silent rfl] at offer
      cases offer

/-- Worker `id` is not broken, and there was room for all that it was ever offered. -/
structure Unfailing (h : Hub) (past : List HubAction) (id : Nat) : Prop where
  unbroken : ∀ w, (h.after past).workers[id]? = some w → w.status ≠ .dead
  roomy : ∀ o ∈ h.offers id past, o.2 ≠ some .full

theorem unfailing_of_roomy {h : Hub} {past : List HubAction} {id : Nat} {l : Listener}
    (unbroken : ∀ w ∈ (h.after past).workers, w.status ≠ .dead)
    (roomy : ∀ id < (h.after past).workers.length, (h.after past).listener? id = some l →
      ∀ o ∈ h.offers id past, o.2 ≠ some .full)
    (own : (h.after past).listener? id = some l) : h.Unfailing past id := by
  obtain ⟨w, worker, -⟩ := listener?_eq_some_iff.1 own
  exact ⟨fun v there => unbroken v (List.mem_of_getElem? there),
    roomy id (List.getElem?_eq_some_iff.1 worker).1 own⟩

/-- **A worker that never failed has what was emitted while its listener was a member**: its
listener has begun to handle the older part, and the rest is queued. -/
theorem trail_eq_emitted
    (worker : ((create busCapacity queueOverride? []).after past).workers[id]? = some w)
    (unfailing : (create busCapacity queueOverride? []).Unfailing past id) :
    ((create busCapacity queueOverride? []).after past).trail id w =
      (create busCapacity queueOverride? []).emittedWhile (·.members.contains id) past := by
  obtain ⟨unbroken, roomy⟩ := unfailing
  obtain ⟨lost, account⟩ := account_of_worker worker
  have accepted : ∀ o ∈ (create busCapacity queueOverride? []).offers id past,
      o.2.isNone = true := fun o offer => by
    rw [(full_of_refused worker (unbroken w worker) o offer).resolve_right (roomy o offer)]
    rfl
  rw [← map_offers, ← List.filter_eq_self.2 accepted]
  change _ = acceptedOf _
  rw [account.balance, account.alive (unbroken w worker), List.append_nil, trail]

theorem drained_of_exited
    (worker : ((create busCapacity queueOverride? []).after past).workers[id]? = some w)
    (exited : w.status = .exited) : w.queue = [] := by
  induction past using List.reverseRecOn generalizing w with
  | nil => cases worker
  | append_singleton past x ih =>
    rw [after_concat] at worker
    rcases worker_origin worker with ⟨v, es, there, -, s⟩ | ⟨l, -, -, -, rfl⟩
    · exact s.drained (ih there) exited
    · rfl

end Hub

end Quiesce
