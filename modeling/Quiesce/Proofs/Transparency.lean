import Quiesce.Proofs.Erasure
import Quiesce.Proofs.Marks
/-!
# Listeners are transparent

Erase some of the listeners from a history, with whatever they do and whatever is done to them: what
is left (`remainingHistory`) is a history of the controller without them, and nobody else can tell
the difference (`listeners_transparent`). The server does not look at its hub, it only emits notices
(`Oblivious`, `oblivious_step`); what happens in the hub happens without the listeners as well, by
the laws of `Quiesce.Proofs.Erasure`; so each action commutes with the erasing (`erase_step`), and a
whole history does (`erase_after`). Which events go with the listeners is settled by noting whom
each event is about when it is created.
-/

namespace Quiesce

/-! ## The controller apart from its hub -/

/-- The action is a request to the server, a step of a run or the end of a call. -/
def Action.ofServer : Action → Bool
  | .listeners _ => false
  | _ => true

namespace Controller

variable {c d : Controller} {x : Action} {id : Nat} {gone : Listener → Bool} {kept : Nat → Bool}

def withHub (c : Controller) (g : Hub) : Controller := { c with hub := g }

section
variable (c : Controller) (g : Hub)

@[simp] theorem withHub_state : (c.withHub g).state = c.state := rfl
@[simp] theorem withHub_registry : (c.withHub g).registry = c.registry := rfl
@[simp] theorem withHub_attempt : (c.withHub g).attempt = c.attempt := rfl
@[simp] theorem withHub_calls : (c.withHub g).calls = c.calls := rfl

@[simp] theorem withHub_isCancelled (t : Token) : (c.withHub g).isCancelled t = c.isCancelled t :=
  rfl

@[simp] theorem withHub_activeRun? (id : Nat) : (c.withHub g).activeRun? id = c.activeRun? id := rfl

@[simp] theorem withHub_mayAdvance (id : Nat) (r : Run) (s : State) :
    (c.withHub g).mayAdvance id r s = c.mayAdvance id r s := rfl

theorem withHub_cancelToken (t : Token) :
    (c.withHub g).cancelToken t = (c.cancelToken t).withHub g := by
  have same : (c.withHub g).cancelled = c.cancelled := rfl
  unfold cancelToken
  rw [same]
  split <;> rfl

end

/-- Whatever the hub is, `f` does the same to the rest of the controller, and to the hub nothing but
to emit one notice of the server, if it does that. -/
def Oblivious (f : Controller → Controller) (c : Controller) : Prop :=
  ∃ n? : Option Notice, (∀ n, n? = some n → n.kind.isSubscriberEvent = false) ∧
    ∀ g, f (c.withHub g) = (f c).withHub (n?.elim g g.emit)

theorem oblivious_of_eq {f : Controller → Controller}
    (same : ∀ g, f (c.withHub g) = (f c).withHub g) : Oblivious f c :=
  ⟨none, fun n nothing => (by cases nothing), same⟩

theorem oblivious_of_emit {f : Controller → Controller} (n : Notice)
    (server : n.kind.isSubscriberEvent = false)
    (emits : ∀ g, f (c.withHub g) = (f c).withHub (g.emit n)) : Oblivious f c :=
  ⟨some n, fun m own => by cases own; exact server, emits⟩

theorem oblivious_completePhase (c : Controller) (id : Nat) (r : Run) (q : Request) :
    Oblivious (completePhase · id r q) c := by
  cases q with
  | prepare context =>
    refine oblivious_of_eq fun g => ?_
    by_cases may : c.mayAdvance id r .preSuspend = true <;>
      simp only [completePhase, withHub_mayAdvance, may] <;> rfl
  | suspend context =>
    by_cases may : c.mayAdvance id r .suspending = true
    · refine oblivious_of_emit .suspendComplete rfl fun g => ?_
      simp only [completePhase, withHub_mayAdvance, may, if_true]
      rfl
    · refine oblivious_of_eq fun g => ?_
      simp only [completePhase, withHub_mayAdvance, may]
      rfl
  | resume context =>
    by_cases may : c.attempt.generation = r.generation
    · refine oblivious_of_emit .resumeComplete rfl fun g => ?_
      simp only [completePhase, withHub_attempt, may, if_true]
      rfl
    · refine oblivious_of_eq fun g => ?_
      simp only [completePhase, withHub_attempt, may, if_false]
      rfl

theorem oblivious_fail (c : Controller) (id : Nat) (phase : Phase) (group : Token) (f : Failure) :
    Oblivious (fail · id phase group f) c := by
  refine oblivious_of_emit (.phaseFailed phase f) (by cases phase <;> rfl) fun g => ?_
  simp only [fail, withHub_cancelToken]
  rfl

/-- A step that is possible is as oblivious as what it comes to. -/
theorem oblivious_getD {step? : Controller → Option Controller} {f : Controller → Controller}
    (steps : ∀ g, step? (c.withHub g) = some (f (c.withHub g))) (same : Oblivious f c) :
    Oblivious (fun c => (step? c).getD c) c := by
  obtain ⟨n?, server, alike⟩ := same
  refine ⟨n?, server, fun g => ?_⟩
  have own : step? c = some (f c) := steps c.hub
  simp only [steps g, own, Option.getD_some, alike]

theorem oblivious_of_none {step? : Controller → Option Controller}
    (waits : ∀ g, step? (c.withHub g) = none) : Oblivious (fun c => (step? c).getD c) c := by
  have own : step? c = none := waits c.hub
  exact oblivious_of_eq fun g => by simp only [waits g, own, Option.getD_none]

theorem oblivious_turn (c : Controller) (id : Nat) :
    Oblivious (fun c => (c.turn? id).getD c) c := by
  cases active : c.activeRun? id with
  | none => exact oblivious_of_none fun g => by simp [turn?, active]
  | some run =>
    obtain ⟨r, p⟩ := run
    cases next : p.next (c.isCancelled (r.token id)) c.registry.members with
    | blocked => exact oblivious_of_none fun g => by simp [turn?, active, next]
    | canceled =>
      exact oblivious_getD (f := (resolve · id (.error .canceled)))
        (fun g => by simp [turn?, active, next]) (oblivious_of_eq fun g => rfl)
    | completed =>
      exact oblivious_getD (f := (completePhase · id r p.request))
        (fun g => by simp [turn?, active, next]) (oblivious_completePhase c id r _)
    | pass p' =>
      exact oblivious_getD (f := (setStage · id (.active p')))
        (fun g => by simp [turn?, active, next]) (oblivious_of_eq fun g => rfl)
    | launch q members rest =>
      exact oblivious_getD (f := (launch · id r p q members rest))
        (fun g => by simp [turn?, active, next]) (oblivious_of_eq fun g => rfl)

theorem oblivious_collect (c : Controller) (id call : Nat) :
    Oblivious (fun c => (c.collect? id call).getD c) c := by
  cases active : c.activeRun? id with
  | none => exact oblivious_of_none fun g => by simp [collect?, active]
  | some run =>
    obtain ⟨r, p⟩ := run
    cases barrier : p.barrier? with
    | none => exact oblivious_of_none fun g => by simp [collect?, active, barrier]
    | some b =>
      by_cases may : c.isCancelled (r.token id) = false ∧ call ∈ b.pending
      · cases made : c.calls[call]? with
        | none => exact oblivious_of_none fun g => by simp [collect?, active, made]
        | some k =>
          cases ended : k.ending? with
          | none => exact oblivious_of_none fun g => by simp [collect?, active, made, ended]
          | some ending =>
            cases error : ending.error? with
            | none =>
              exact oblivious_getD (f := (setStage · id (.active (p.succeed call))))
                (fun g => by simp [collect?, active, barrier, may, made, ended, error])
                (oblivious_of_eq fun g => rfl)
            | some e =>
              exact oblivious_getD
                (f := (fail · id p.request.phase b.token ⟨k.activity.name, b.priority, e⟩))
                (fun g => by simp [collect?, active, barrier, may, made, ended, error])
                (oblivious_fail c id _ _ _)
      · refine oblivious_of_none fun g => ?_
        have stop : (c.isCancelled (r.token id) || !b.pending.contains call) = true := by
          simpa [Classical.or_iff_not_imp_left] using may
        rw [collect?, withHub_activeRun?, active]
        simp only [Option.bind_eq_bind, Option.bind_some, barrier, withHub_isCancelled, stop,
          if_true]

theorem oblivious_register (c : Controller) (a : Activity) (level : Nat) :
    Oblivious (fun c => (c.registerAt a level).1) c := by
  cases valid : Priority.ofLevel level with
  | error e => exact oblivious_of_eq fun g => by simp [registerAt, valid]
  | ok p =>
    cases known : c.registry.priorityOf? a with
    | some q => exact oblivious_of_eq fun g => by simp [registerAt, valid, register, known]
    | none =>
      refine oblivious_of_emit (.registered a p) rfl fun g => ?_
      by_cases running : c.state = .running <;>
        simp only [registerAt, valid, register, withHub_registry, known, emit_state, withHub_state,
          running, if_true, if_false] <;> rfl

/-- **Nothing that happens to the server depends on the hub.** -/
theorem oblivious_step (c : Controller) (server : x.ofServer = true) : Oblivious (step · x) c := by
  cases x with
  | suspend context =>
    by_cases running : c.state = .running
    · refine oblivious_of_emit .suspendStarted rfl fun g => ?_
      simp only [step, suspend, withHub_state, running, if_true]
      rfl
    · exact oblivious_of_eq fun g => by simp [step, suspend, running]
  | resume context =>
    by_cases running : c.state = .running
    · exact oblivious_of_eq fun g => by simp [step, resume, running]
    · refine oblivious_of_emit .suspendCancelled rfl fun g => ?_
      simp only [step, resume, withHub_state, running, if_false, withHub_attempt,
        withHub_cancelToken]
      rfl
  | reset =>
    refine oblivious_of_eq fun g => ?_
    simp only [step, reset, withHub_attempt, withHub_cancelToken]
    rfl
  | cancel generation =>
    refine oblivious_of_eq fun g => ?_
    simp only [step, cancelAttempt, withHub_attempt, withHub_cancelToken]
    split <;> rfl
  | register a level => exact oblivious_register c a level
  | unregister a =>
    cases known : c.registry.priorityOf? a with
    | none => exact oblivious_of_eq fun g => by simp [step, unregister, known]
    | some p =>
      refine oblivious_of_emit (.unregistered a p) rfl fun g => ?_
      simp only [step, unregister, withHub_registry, known]
      rfl
  | turn run => exact oblivious_turn c run
  | collect run call => exact oblivious_collect c run call
  | finish call e => exact oblivious_of_eq fun g => rfl
  | listeners y => cases server

/-! ## Histories without some of the listeners -/

/-- The controller without the listeners that are gone. -/
def erase (gone : Listener → Bool) (kept : Nat → Bool) (c : Controller) : Controller :=
  c.withHub (c.hub.erase gone kept)

/-- What is left of an action when the listeners that are gone do nothing, and nothing is done to
them. -/
def remainingAction? (gone : Listener → Bool) (c : Controller) : Action → Option Action
  | .listeners y => (c.hub.remainingAction? gone y).map .listeners
  | x => some x

/-- What is left of a history that begins with `c`. -/
def remainingHistory (gone : Listener → Bool) : Controller → List Action → List Action
  | _, [] => []
  | c, x :: later => (c.remainingAction? gone x).toList ++ (c.step x).remainingHistory gone later

theorem remainingAction?_of_server (server : x.ofServer = true) (gone : Listener → Bool)
    (c : Controller) : c.remainingAction? gone x = some x := by
  cases x with
  | listeners y => cases server
  | _ => rfl

theorem filter_remainingHistory (gone : Listener → Bool) (c : Controller) (history : List Action) :
    (c.remainingHistory gone history).filter Action.ofServer = history.filter Action.ofServer := by
  induction history generalizing c with
  | nil => rfl
  | cons x later ih =>
    rw [remainingHistory, List.filter_append, ih]
    cases own : x.ofServer with
    | true => simp [remainingAction?_of_server own, own]
    | false =>
      cases x with
      | listeners y =>
        cases left : c.hub.remainingAction? gone y <;>
          simp [remainingAction?, left, Action.ofServer]
      | _ => cases own

theorem exists_of_mem_remainingHistory {history : List Action}
    (left : x ∈ c.remainingHistory gone history) :
    ∃ before y rest, history = before ++ y :: rest ∧
      (c.after before).remainingAction? gone y = some x := by
  induction history generalizing c with
  | nil => cases left
  | cons y rest ih =>
    rcases List.mem_append.1 left with now | afterwards
    · exact ⟨[], y, rest, rfl, by simpa using now⟩
    · obtain ⟨before, z, rest', rfl, own⟩ := ih afterwards
      exact ⟨y :: before, z, rest', rfl, own⟩

theorem remains_of_mem_remainingHistory {z : ListenerAction} {l : Listener} {history : List Action}
    (left : .listeners z ∈ c.remainingHistory gone history) (names : z = .add l ∨ z = .remove l) :
    gone l = false := by
  obtain ⟨before, x, rest, -, own⟩ := exists_of_mem_remainingHistory left
  cases x with
  | listeners y =>
    obtain ⟨z', left', same⟩ := Option.map_eq_some_iff.1 own
    cases same
    exact Hub.remains_of_remainingAction? left' names
  | _ => cases own

theorem step_eq_withHub (same : Oblivious (step · x) c) : ∃ n? : Option Notice,
    (∀ n, n? = some n → n.kind.isSubscriberEvent = false) ∧
    (c.step x).hub = n?.elim c.hub c.hub.emit ∧
    ∀ g, (c.withHub g).step x = (c.step x).withHub (n?.elim g g.emit) := by
  obtain ⟨n?, server, alike⟩ := same
  exact ⟨n?, server, congrArg hub (alike c.hub), alike⟩

theorem recorded_step (recorded : c.hub.Recorded) (x : Action) : (c.step x).hub.Recorded := by
  cases own : x.ofServer with
  | true =>
    obtain ⟨n?, server, hub, -⟩ := step_eq_withHub (oblivious_step c own)
    rw [hub]
    cases n? with
    | none => exact recorded
    | some n => exact recorded.emit (server n rfl)
  | false =>
    cases x with
    | listeners y => exact recorded.stepListeners y
    | _ => cases own

theorem recorded_after (recorded : c.hub.Recorded) (history : List Action) :
    (c.after history).hub.Recorded := by
  induction history generalizing c with
  | nil => exact recorded
  | cons x later ih => exact ih (recorded_step recorded x)

/-- **Whatever happens to the controller happens to it without the listeners that are gone as well,
as far as it is left.** -/
theorem erase_step (recorded : c.hub.Recorded) (x : Action) :
    ∃ about, c.hub.Creates (c.step x).hub about ∧ ∀ gone kept,
      Hub.Spares gone kept c.hub.journal.size about →
      (c.step x).erase gone kept =
        (c.erase gone kept).after (c.remainingAction? gone x).toList := by
  cases own : x.ofServer with
  | true =>
    obtain ⟨n?, server, hub, alike⟩ := step_eq_withHub (oblivious_step c own)
    have commutes : c.hub.Commutes (c.step x).hub fun _ g => n?.elim g g.emit := by
      rw [hub]
      cases n? with
      | none => exact .of_journal rfl fun _ _ => rfl
      | some n => exact Hub.erase_emit recorded.numbered (server n rfl)
    obtain ⟨about, created, same⟩ := commutes
    refine ⟨about, created, fun gone kept spares => ?_⟩
    rw [remainingAction?_of_server own, Option.toList_some, after_cons, after_nil, erase,
      same gone kept spares]
    exact (alike _).symm
  | false =>
    cases x with
    | listeners y =>
      obtain ⟨about, created, same⟩ :=
        Hub.erase_stepListeners recorded.numbered recorded.known y
      refine ⟨about, created, fun gone kept spares => ?_⟩
      refine (congrArg c.withHub (same gone kept spares)).trans ?_
      simp only [remainingAction?]
      cases c.hub.remainingAction? gone y <;> rfl
    | _ => cases own

/-- Whatever happens in a history happens without them, at every point of it. -/
theorem erase_after (recorded : c.hub.Recorded) (history : List Action) :
    ∃ about, c.hub.Creates (c.after history).hub about ∧ ∀ gone kept,
      Hub.Spares gone kept c.hub.journal.size about →
      ∀ earlier later, history = earlier ++ later →
        (c.after earlier).erase gone kept =
          (c.erase gone kept).after (c.remainingHistory gone earlier) := by
  induction history generalizing c with
  | nil =>
    refine ⟨[], .refl _, fun gone kept _ earlier later split => ?_⟩
    rw [(List.append_eq_nil_iff.1 split.symm).1]
    rfl
  | cons x rest ih =>
    obtain ⟨about, created, same⟩ := erase_step recorded x
    obtain ⟨about', created', same'⟩ := ih (recorded_step recorded x)
    refine ⟨about ++ about', created.trans created', fun gone kept spares earlier later split => ?_⟩
    obtain ⟨now, afterwards⟩ := Hub.spares_append.1 spares
    cases earlier with
    | nil => rfl
    | cons y earlier =>
      obtain ⟨rfl, rfl⟩ := List.cons_eq_cons.1 split
      rw [after_cons, remainingHistory, after_append, ← same gone kept now]
      exact same' gone kept (created.size ▸ afterwards) earlier later rfl

/-! ## Transparency -/

/-- Nobody but the listeners that are gone can tell `c` from `d`. -/
structure SameWithout (gone : Listener → Bool) (kept : Nat → Bool) (c d : Controller) : Prop where
  /-- State, registry, attempt, runs, calls and cancelled tokens are the same. -/
  apart : d = { c with hub := d.hub }
  suspends : ∀ context, (d.suspend context).2 = (c.suspend context).2
  resumes : ∀ context, (d.resume context).2 = (c.resume context).2
  outcomes : ∀ k, d.outcome? k = c.outcome? k
  registers : ∀ a level, (d.registerAt a level).2 = (c.registerAt a level).2
  registrations : ∀ r, d.registered? r = c.registered? r
  tokens : ∀ t, d.isCancelled t = c.isCancelled t
  /-- The bus carries the events that are kept. -/
  bus : d.hub.bus.stream.toList = Event.remaining kept c.hub.bus.stream.toList
  /-- Those of the server are all kept. -/
  server : d.hub.bus.stream.toList.filter (fun e => !e.kind.isSubscriberEvent) =
    (c.hub.bus.stream.toList.filter fun e => !e.kind.isSubscriberEvent).map (Event.renumber kept)
  workers : d.hub.workers =
    (c.hub.workers.filter fun w => !gone w.listener).map (Worker.renumber kept)
  members : ∀ l, gone l = false → d.hub.contains l = c.hub.contains l
  heard : ∀ l, gone l = false → (d.hub.heard l).map Delivery.event =
    ((c.hub.heard l).map Delivery.event).map (Event.renumber kept)
  /-- Whatever is heard is kept. -/
  told : ∀ l, ∀ d ∈ c.hub.heard l, kept d.event.seq = true

theorem sameWithout_erase (recorded : c.hub.Recorded)
    (server : ∀ e ∈ c.hub.journal.toList, e.kind.isSubscriberEvent = false → kept e.seq = true) :
    SameWithout gone kept c (c.erase gone kept) where
  apart := rfl
  suspends context := by
    by_cases running : c.state = .running
    · simp only [suspend, erase, withHub_state, running, if_true]
      rfl
    · simp [suspend, erase, running]
  resumes context := by
    by_cases running : c.state = .running
    · simp [resume, erase, running]
    · simp only [resume, erase, withHub_state, running, if_false]
      rfl
  outcomes k := rfl
  registers a level := by
    cases valid : Priority.ofLevel level with
    | error e => simp [registerAt, valid]
    | ok p =>
      cases known : c.registry.priorityOf? a with
      | some q => simp [registerAt, valid, register, erase, known]
      | none =>
        by_cases running : c.state = .running <;>
          simp [registerAt, valid, register, erase, known, running]
  registrations r := rfl
  tokens t := rfl
  bus := rfl
  server := by
    refine Event.filter_remaining (fun e => rfl) fun e published own => ?_
    exact server e (recorded.published e published) (by simpa using own)
  workers := rfl
  members l remains := Hub.contains_erase remains
  heard l remains := Hub.heard_erase remains kept c.hub
  told l d heard := by
    have tells := recorded.begun d (List.mem_filter.1 heard).1
    exact server d.event tells.1 tells.2

/-- Each event is about what was noted when it was created. -/
theorem about_of_creates {h h' : Hub} {about : List (Option Listener)} (new : h.journal = #[])
    (created : h.Creates h' about) (numbered : h'.Numbered) :
    ∀ e ∈ h'.journal.toList, e.About about[e.seq]?.join := by
  obtain ⟨es, journal, each⟩ := created
  rw [new, List.nil_append] at journal
  intro e member
  obtain ⟨i, here⟩ := List.getElem?_of_mem member
  rw [numbered.seq_eq here]
  rw [journal] at here
  obtain ⟨lt, rfl⟩ := List.getElem?_eq_some_iff.1 here
  have lt' : i < about.length := each.length_eq ▸ lt
  rw [List.getElem?_eq_getElem lt', Option.join_some]
  exact each.get lt lt'

/-- **Listeners are transparent.** In every history each event is about a listener, or about none
but the server. Whichever listeners are forgotten, what is left of the history is a history of the
controller without them: it has all of the server's own actions and does not name the listeners, and
at every point nobody else can tell it from the history as it was, if the events about these
listeners are not counted. The other events keep their order. What a listener asks of the controller
is an action of the history like any other and is left in it; of listeners that ask for nothing
nothing is left. They may be slow, full, removed, panicking or dead. -/
theorem listeners_transparent (config : Config) (listeners : List Listener)
    (history : List Action) :
    let c₀ := create config listeners
    ∃ subject? : Nat → Option Listener,
      (∀ e ∈ (c₀.after history).hub.journal.toList, e.About (subject? e.seq)) ∧
      ∀ gone : Listener → Bool,
        let d₀ := create config (listeners.filter fun l => !gone l)
        let kept := fun s => !(subject? s).any gone
        (∀ s t, kept s = true → s < t → newNumber kept s < newNumber kept t) ∧
        (c₀.remainingHistory gone history).filter Action.ofServer =
          history.filter Action.ofServer ∧
        (∀ l, .listeners (.add l) ∈ c₀.remainingHistory gone history ∨
          .listeners (.remove l) ∈ c₀.remainingHistory gone history → gone l = false) ∧
        ∀ earlier later, history = earlier ++ later →
          SameWithout gone kept (c₀.after earlier)
            (d₀.after (c₀.remainingHistory gone earlier)) := by
  intro c₀
  have recorded : c₀.hub.Recorded := Hub.recorded_create _ _ _
  obtain ⟨about, created, same⟩ := erase_after recorded history
  have new : c₀.hub.journal = #[] := (new_create config listeners).journal
  have told := about_of_creates new created (recorded_after recorded history).numbered
  refine ⟨fun s => about[s]?.join, told, fun gone => ?_⟩
  intro d₀ kept
  have start : c₀.erase gone kept = d₀ :=
    congrArg c₀.withHub (Hub.erase_create gone kept _ _ listeners)
  have spares : Hub.Spares gone kept c₀.hub.journal.size about := by
    intro i s own
    simp [kept, new, own]
  refine ⟨fun s t => newNumber_lt, filter_remainingHistory gone c₀ history,
    fun l named => named.elim (remains_of_mem_remainingHistory · (.inl rfl))
      (remains_of_mem_remainingHistory · (.inr rfl)), ?_⟩
  rintro earlier later rfl
  rw [← start, ← same gone kept spares earlier later rfl]
  have before := recorded_after recorded earlier
  refine sameWithout_erase before fun e member server => ?_
  -- What was created by then is still in the journal at the end.
  obtain ⟨-, ⟨es, journal, -⟩, -⟩ := erase_after before later
  have known := told e (by rw [after_append, journal]; exact List.mem_append_left _ member)
  cases subject : about[e.seq]?.join with
  | none => simp [kept, subject]
  | some l =>
    rw [subject] at known
    exact absurd known.1 (by simp [server])

/-- A listener breaks, and the drops take up numbers; the other one hears the same without it. -/
example :
    let broken : Listener := { key := "a", name := "broken" }
    let sound : Listener := { key := "b", name := "sound" }
    let c₀ := create { requestedState := .running } [broken, sound]
    let d₀ := create { requestedState := .running } [sound]
    let history : List Action := [.suspend {}, .listeners (.take 0), .listeners (.die 0),
      .listeners (.take 1), .listeners (.returned 1), .resume {}, .listeners (.take 1),
      .listeners (.returned 1), .reset, .resume {}, .listeners (.take 1)]
    let left : List Action := [.suspend {}, .listeners (.take 0), .listeners (.returned 0),
      .resume {}, .listeners (.take 0), .listeners (.returned 0), .reset, .resume {},
      .listeners (.take 0)]
    c₀.remainingHistory (fun l => l = broken) history = left ∧
      ((c₀.after history).hub.heard sound).map (·.event.seq) = [0, 1, 3] ∧
      ((d₀.after left).hub.heard sound).map (·.event.seq) = [0, 1, 2] := by
  decide +kernel

end Controller

end Quiesce
