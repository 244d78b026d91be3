import Quiesce.Proofs.Reports
import Quiesce.Proofs.Resolution
import Quiesce.Proofs.Calls
/-!
# What is said of a failure

A run that fails does so because a call failed that it waited for (`Fails.call`). The failure is
told twice: by one event, and by the error that every waiter of the run receives. Both name the same
phase and the same error of the activity (`failure_reports`). The event has only a text for the
error, but no two errors have the same one (`ActivityError.display_injective`), so the event says
all that the waiters are told.
-/

namespace Quiesce

/-- No two errors of an activity read the same, whatever texts they contain. -/
theorem ActivityError.display_injective : Function.Injective display := by
  intro e e' same
  -- After the first word the forms of the three kinds differ in their next letter.
  have letter := congrArg (fun s : String => s.toList[9]?) same
  cases e with
  | fail text =>
    cases e' with
    | fail text' =>
      rw [display_fail, display_fail, String.append_right_inj] at same
      rw [same]
    | panicked info' | canceled => simp [String.toList_append] at letter
  | panicked info =>
    cases e' with
    | panicked info' =>
      rw [display_panicked, display_panicked, String.append_right_inj] at same
      rw [same]
    | fail text' | canceled => simp [String.toList_append] at letter
  | canceled =>
    cases e' with
    | canceled => rfl
    | fail text' | panicked info' => simp [String.toList_append] at letter

theorem Run.failed_of_report? {r : Run} {kind : EventKind} (report : r.report? = some kind)
    (failure : kind = .suspendFailed ∨ kind = .resumeFailed) :
    ∃ e, r.stage = .resolved (.error e) ∧ e ≠ .canceled := by
  unfold report? at report
  split at report <;> cases report <;> simp_all

/-- The phase and the text of a report tell which error the waiters receive. -/
theorem Notice.ofPhase_eq_of_phaseFailed {phase phase' : Phase} {f f' : Failure}
    (samePhase : (phaseFailed phase f).phase = (phaseFailed phase' f').phase)
    (sameReason : (phaseFailed phase f).reason = (phaseFailed phase' f').reason) :
    SuspendError.ofPhase phase f.error = .ofPhase phase' f'.error := by
  simp only [phaseFailed, Option.some.injEq] at samePhase sameReason
  rw [samePhase, ActivityError.display_injective sameReason]

namespace Controller

variable {c c₀ : Controller} {x : Action} {history : List Action} {id : Nat} {e : SuspendError}
  {event : Event}

/-- The action makes run `id` fail with the error `e`. -/
structure Fails (c : Controller) (x : Action) (id : Nat) (e : SuspendError) : Prop where
  resolves : c.Resolves x id (.error e)
  failed : e ≠ .canceled

/-- The event is created when the action makes run `id` fail with the error `e`, and it is not about
a listener. -/
structure TellsOf (c : Controller) (x : Action) (id : Nat) (e : SuspendError) (event : Event) : Prop
    where
  fails : c.Fails x id e
  created : event ∈ c.created (c.step x)
  server : event.kind.isSubscriberEvent = false

/-- At the action `x` run `id`, which waits for the call `k` in its present phase, notes that the
call ended with the error `source`. It made the call to a member of the group `q`. -/
structure FailsOver (c₀ : Controller) (history : List Action) (x : Action) (id : Nat) (k : Call)
    (q : Priority) (source : ActivityError) : Prop where
  noted : ∃ i r p b, x = .collect id i ∧ (c₀.after history).calls[i]? = some k ∧
    (c₀.after history).runs[id]? = some r ∧ r.stage = .active p ∧ p.request = k.request ∧
    p.barrier? = some b ∧ b.priority = q ∧ i ∈ b.pending
  ended : ∃ ending, k.ending? = some ending ∧ ending.error? = some source
  origin : k.origin = .run id q
  /-- The activity was registered under the priority when the run reached the group. -/
  member : ∃ before rest, history = before ++ .turn id :: rest ∧
    (c₀.after before).Reaches id k.request q ∧ k.activity ∈ (c₀.after before).registry.members q

/-! ## One failure -/

/-- A run fails when it notes that a call failed which it waits for. -/
theorem Fails.call (new : c₀.New) (h : (c₀.after history).Fails x id e) :
    ∃ (k : Call) (q : Priority) (source : ActivityError) (group : Token),
      c₀.FailsOver history x id k q source ∧ e = .ofPhase k.request.phase source ∧
      (c₀.after history).step x =
        (c₀.after history).fail id k.request.phase group ⟨k.activity.name, q, source⟩ := by
  obtain ⟨r, p, run, active, move⟩ := h.resolves.move
  generalize (c₀.after history).step x = d at move
  cases move with
  | gaveUp why => exact absurd rfl h.failed
  | failed i b k ending source live barrier pending made ended error =>
    obtain ⟨k', made', origin, request, -⟩ := awaited new run active barrier pending
    rw [made] at made'
    cases made'
    have blame : c₀.FailsOver history (.collect id i) id k b.priority source :=
      ⟨⟨i, r, p, b, rfl, made, run, active, request.symm, barrier, rfl, pending⟩,
        ⟨ending, ended, error⟩, origin, reaches_of_call new made origin⟩
    exact ⟨k, b.priority, source, b.token, blame, by rw [request], by rw [request]⟩

/-- One event tells of a failure; whatever is created with it tells of its drops. -/
theorem created_fail (c : Controller) (id : Nat) (phase : Phase) (group : Token) (f : Failure) :
    ∃ drops, c.created (c.fail id phase group f) = c.hub.next (.phaseFailed phase f) :: drops ∧
      ∀ other ∈ drops, other.kind = .subscriberOverflow :=
  created_emit (by simp [resolve]) _

theorem TellsOf.notice (new : c₀.New) (h : (c₀.after history).TellsOf x id e event) :
    ∃ phase f, event.toNotice = .phaseFailed phase f ∧ e = .ofPhase phase f.error := by
  obtain ⟨k, q, source, group, -, error, step⟩ := h.fails.call new
  obtain ⟨drops, created, about⟩ := created_fail (c₀.after history) id k.request.phase group
    ⟨k.activity.name, q, source⟩
  have member := h.created
  rw [step, created] at member
  rcases List.mem_cons.1 member with rfl | drop
  · exact ⟨k.request.phase, ⟨k.activity.name, q, source⟩, rfl, error⟩
  · have server := h.server
    rw [about event drop] at server
    cases server

theorem fails_of_created (new : c₀.New)
    (created : event ∈ (c₀.after history).created ((c₀.after history).step x))
    (failure : event.kind = .suspendFailed ∨ event.kind = .resumeFailed) :
    ∃ id e, (c₀.after history).Fails x id e := by
  have hs := step_spec (c₀.after history) x
  have told : event.kind ∈ (c₀.after history).told ((c₀.after history).step x) := by
    rw [Controller.told, List.mem_filter]
    exact ⟨List.mem_map_of_mem created, by rcases failure with h | h <;> rw [h] <;> rfl⟩
  cases own : x.run? with
  | none =>
    rcases hs.told_of_request own with nothing | ⟨kind, one, among⟩
    · rw [nothing] at told
      cases told
    · rw [one, List.mem_singleton] at told
      rw [← told] at among
      rcases failure with h | h <;> simp [h] at among
  | some id =>
    rcases hs.of_run? own with same | ⟨r, p, stage, run, active, move⟩
    · rw [told_of_hub (by rw [same])] at told
      cases told
    · rw [move.told (coherent_after new history) run active, Option.mem_toList] at told
      obtain ⟨e, rfl, failed⟩ := Run.failed_of_report? told failure
      exact ⟨id, e, move.resolves run active, failed⟩

/-! ## The law -/

/-- **The reports of a failure agree, and each says all.** When a run fails, it is over a call to
someone who was a member of its group when the run reached it. At that moment one event is created,
besides those about its own drops; it names the activity, the priority of the group, the phase of
the run and the text of the error that the call ended with. The run is resolved with that same
error, in the form that belongs to the phase. Events of failure are created in no other way. No two
errors of activities have the same text, so that two failures which are told of with the same phase
and reason are the same error to those who wait. -/
theorem failure_reports (config : Config) (listeners : List Listener) (history : List Action)
    (x : Action) :
    let c₀ := create config listeners
    let c := c₀.after history
    let d := c.step x
    (∀ id e, c.Fails x id e → ∃ k q source event drops, c₀.FailsOver history x id k q source ∧
      c.created d = event :: drops ∧ (∀ other ∈ drops, other.kind = .subscriberOverflow) ∧
      event.toNotice = {
        kind := if k.request.phase = .resume then .resumeFailed else .suspendFailed
        activity := some k.activity.name
        priority := some q
        phase := some k.request.phase
        reason := some source.display } ∧
      d.outcome? (.run id) = some (.error e) ∧
      e = match k.request.phase with
        | .prepare => .aborted source
        | .suspend => .suspendFailed source
        | .resume => .resumeFailed source) ∧
    (∀ event ∈ c.created d, event.kind = .suspendFailed ∨ event.kind = .resumeFailed →
      ∃ id e, c.TellsOf x id e event) ∧
    Function.Injective ActivityError.display ∧
    ∀ id e event, c.TellsOf x id e event →
      ∀ config' listeners' history' x' id' e' event',
        ((create config' listeners').after history').TellsOf x' id' e' event' →
        event.phase = event'.phase → event.reason = event'.reason → e = e' := by
  intro c₀ c d
  have new : c₀.New := new_create config listeners
  refine ⟨?_, ?_, ActivityError.display_injective, ?_⟩
  · intro id e fails
    obtain ⟨k, q, source, group, blame, error, step⟩ := fails.call new
    obtain ⟨drops, created, about⟩ := created_fail c id k.request.phase group
      ⟨k.activity.name, q, source⟩
    refine ⟨k, q, source, _, drops, blame, step ▸ created, about, ?_, fails.resolves.2, ?_⟩
    · cases asks : k.request.phase <;> rfl
    · rw [error]
      cases asks : k.request.phase <;> rfl
  · intro event created failure
    obtain ⟨id, e, fails⟩ := fails_of_created new created failure
    exact ⟨id, e, fails, created, by rcases failure with h | h <;> rw [h] <;> rfl⟩
  · intro id e event tells config' listeners' history' x' id' e' event' tells' samePhase sameReason
    obtain ⟨phase, f, notice, rfl⟩ := tells.notice new
    obtain ⟨phase', f', notice', rfl⟩ := tells'.notice (new_create config' listeners')
    rw [notice, notice'] at samePhase sameReason
    exact Notice.ofPhase_eq_of_phaseFailed samePhase sameReason

/-- Both members of a group fail: the run reports the failure that it notes. -/
theorem failure_reports_noted :
    let c₀ := create { requestedState := .running } []
    let history : List Action := [.register ⟨"a", "a"⟩ 0, .register ⟨"b", "b"⟩ 0, .suspend {},
      .turn 0, .finish 0 (.failed (.fail "no")), .finish 1 (.panicked .nonText)]
    let c := c₀.after history
    let source := ActivityError.panicked "non-string panic payload"
    c.Fails (.collect 0 1) 0 (.aborted source) ∧ ∃ event drops,
      c.created (c.step (.collect 0 1)) = event :: drops ∧ event.activity = some "b" ∧
      event.phase = some .prepare ∧ event.reason = some source.display := by
  intro c₀ history c source
  have fails : c.Fails (.collect 0 1) 0 (.aborted source) := ⟨⟨by decide, by decide⟩, by decide⟩
  obtain ⟨k, q, source', event, drops, blame, created, -, notice, -, error⟩ :=
    (failure_reports { requestedState := .running } [] history (.collect 0 1)).1 0 _ fails
  obtain ⟨i, r, p, b, same, made, -⟩ := blame.noted
  cases same
  have call : c.calls[1]? = some ⟨⟨"b", "b"⟩, .prepare {}, .child (.child (.attempt 1) 0) 1,
    .run 0 .first, some (.panicked .nonText)⟩ := by decide
  cases made.symm.trans call
  cases error
  exact ⟨fails, event, drops, created, by rw [notice], by rw [notice]; rfl, by rw [notice]⟩

end Controller

end Quiesce
