import Quiesce.Proofs.QuietHistory
import Quiesce.Proofs.Tokens
/-!
# There and back

A running server with no run under way is suspended and then resumed, and nobody interferes: every
call returns, in whatever order, and nothing else is asked of the controller. `round_trip` tells all
that comes of it. Either run goes from phase to phase (`Visiting`), and its last move gives it
success (`Ends`), since nothing has superseded it meanwhile.
-/

namespace Quiesce.Controller

variable {c d c₀ : Controller} {x : Action} {history later : List Action} {id n j : Nat} {r : Run}
  {p : PhaseRun} {request : Request} {stage : RunStage} {past : Activity → List Request}
  {kind : EventKind} {state : State}

/-- At its turn run `id` succeeds: it tells of this alone, takes the state to its goal and leaves no
run under way. -/
structure Ends (c : Controller) (n id : Nat) (kind : EventKind) (state : State) : Prop where
  resting : (c.step (.turn id)).Resting n
  outcome : (c.step (.turn id)).outcome? (.run id) = some .ok
  told : c.told (c.step (.turn id)) = [kind]
  state : (c.step (.turn id)).state = state
  registry : (c.step (.turn id)).registry = c.registry
  asked : (c.step (.turn id)).asked = c.asked

/-- In the course of a history run `id` has succeeded, and no run is under way. This was told, these
states were gone through, and activities were asked so much altogether. -/
structure Succeeded (c : Controller) (n id : Nat) (history : List Action) (told : List EventKind)
    (states : List State) (asked : Activity → List Request) : Prop where
  resting : (c.after history).Resting n
  outcome : (c.after history).outcome? (.run id) = some .ok
  tells : c.tells history = told
  stateChanges : c.stateChanges history = states
  registry : (c.after history).registry = c.registry
  asked : (c.after history).asked = asked

/-- Whatever happens quietly, nothing but success is ever behind the handle. It is there when
nothing more happens, and it can always come to this. -/
def BoundToSucceed (c : Controller) (n : Nat) (q : Completion) : Prop :=
  ∀ quiet : List Action, (∀ x ∈ quiet, x.Quiet n) →
    ((c.after quiet).outcome? q = none ∨ (c.after quiet).outcome? q = some .ok) ∧
    ((c.after quiet).Done n → (c.after quiet).outcome? q = some .ok) ∧
    ∃ more, (∀ x ∈ more, x.Quiet n) ∧ ((c.after quiet).after more).outcome? q = some .ok

/-! ## The last move of a phase -/

/-- Nobody but a resume run itself has its token. -/
theorem run_notMem_cancelled (new : c₀.New) (history : List Action) (j : Nat) :
    Token.run j ∉ (c₀.after history).cancelled :=
  notMem_cancelled new (by simp) (by simp)

theorem Visiting.outcome?_eq_none (v : c.Visiting n id request past p) :
    c.outcome? (.run id) = none := by
  obtain ⟨r, run, active, -⟩ := v.active
  rw [outcome?_run run]
  exact Run.outcome?_eq_none.2 ⟨p, active⟩

theorem Visiting.step_through (v : c.Visiting n id request past p) (barrier : p.barrier? = none)
    (ahead : p.ahead = []) : ∃ r, c.runs[id]? = some r ∧ r.stage = .active p ∧
      c.isCancelled (r.token id) = false ∧ r.generation = c.attempt.generation ∧
      c.step (.turn id) = c.completePhase id r request := by
  obtain ⟨r, run, active, live, generation⟩ := v.active
  have unresolved := activeRun?_eq_some.2 ⟨run, active⟩
  refine ⟨r, run, active, live, generation, ?_⟩
  simp [Controller.step, turn?, unresolved, PhaseRun.next, barrier, ahead, v.asks]

theorem Visiting.prepared {context : SuspendContext}
    (v : c.Visiting n id (.prepare context) past p) (h : c.Coherent) (barrier : p.barrier? = none)
    (ahead : p.ahead = []) :
    (c.step (.turn id)).Visiting n id (.suspend context) (c.askedAll (.prepare context) past)
        (.start (.suspend context)) ∧
      c.told (c.step (.turn id)) = [] ∧ c.state = .preSuspend ∧
      (c.step (.turn id)).state = .suspending ∧ (c.step (.turn id)).registry = c.registry := by
  obtain ⟨r, run, active, live, generation, step⟩ := v.step_through barrier ahead
  have expected : c.state = .preSuspend :=
    h.state_of_checks run active (by rw [v.asks]; rfl) live
  have may : c.mayAdvance id r .preSuspend = true :=
    mayAdvance_iff.2 ⟨generation.symm, live, expected⟩
  rw [step, completePhase, if_pos may]
  exact ⟨v.next ahead (.suspend context) rfl rfl rfl rfl, told_of_hub rfl, expected, rfl, rfl⟩

theorem Visiting.ends_suspend {context : SuspendContext}
    (v : c.Visiting n id (.suspend context) past p) (h : c.Coherent) (barrier : p.barrier? = none)
    (ahead : p.ahead = []) : c.Ends n id .suspendComplete .suspended := by
  obtain ⟨r, run, active, live, generation, step⟩ := v.step_through barrier ahead
  have expected : c.state = .suspending :=
    h.state_of_checks run active (by rw [v.asks]; rfl) live
  have may : c.mayAdvance id r .suspending = true :=
    mayAdvance_iff.2 ⟨generation.symm, live, expected⟩
  rw [completePhase, if_pos may] at step
  constructor <;> rw [step]
  · exact v.rest (o := .ok) rfl rfl
  · simp [outcome?, resolve, runs_setStage, run, Run.outcome?]
  · exact told_emit rfl rfl
  · rfl
  · rfl
  · rfl

theorem Visiting.ends_resume {context : ResumeContext}
    (v : c.Visiting n id (.resume context) past p) (barrier : p.barrier? = none)
    (ahead : p.ahead = []) : c.Ends n id .resumeComplete .running := by
  obtain ⟨r, run, active, live, generation, step⟩ := v.step_through barrier ahead
  rw [completePhase, if_pos generation.symm] at step
  constructor <;> rw [step]
  · exact v.rest (o := .ok) rfl rfl
  · simp [outcome?, resolve, runs_setStage, run, Run.outcome?]
  · exact told_emit rfl rfl
  · rfl
  · rfl
  · rfl

/-! ## From the first group to success -/

theorem Succeeded.cons {told : List EventKind} {states : List State}
    {asked : Activity → List Request} (s : (c.step x).Succeeded n id later told states asked)
    (registry : (c.step x).registry = c.registry) (ne : (c.step x).state ≠ c.state) :
    c.Succeeded n id (x :: later) (c.told (c.step x) ++ told) ((c.step x).state :: states) asked where
  resting := s.resting
  outcome := s.outcome
  tells := by rw [Controller.tells, s.tells]
  stateChanges := by
    rw [Controller.stateChanges, s.stateChanges, if_neg ne]
    rfl
  registry := s.registry.trans registry
  asked := s.asked

theorem Succeeded.prepend {told : List EventKind} {states : List State}
    {asked : Activity → List Request} (s : (c.after history).Succeeded n id later told states asked)
    (still : c.Still history) : c.Succeeded n id (history ++ later) told states asked where
  resting := by rw [after_append]; exact s.resting
  outcome := by rw [after_append]; exact s.outcome
  tells := by rw [tells_append, still.tells, s.tells]; rfl
  stateChanges := by rw [stateChanges_append, still.stateChanges, s.stateChanges]; rfl
  registry := by rw [after_append, s.registry, still.registry]
  asked := by rw [after_append, s.asked]

theorem askedAll_of_registry (registry : d.registry = c.registry) (request : Request)
    (past : Activity → List Request) : d.askedAll request past = c.askedAll request past := by
  funext a
  rw [askedAll, askedAll, registry]

theorem Ends.succeeded (ends : c.Ends n id kind state) (ne : state ≠ c.state)
    (quiet : ∀ x ∈ later, x.Quiet n) :
    c.Succeeded n id (.turn id :: later) [kind] [state] c.asked := by
  obtain ⟨resting, runs, asked, still⟩ := ends.resting.after quiet
  have s : (c.step (.turn id)).Succeeded n id later [] [] c.asked :=
    ⟨resting, (later_after _ later).outcome? ends.outcome, still.tells, still.stateChanges,
      still.registry, asked.trans ends.asked⟩
  have moved := s.cons ends.registry (ends.state.symm ▸ ne)
  rwa [ends.told, ends.state] at moved

/-- The last phase of a run: unless it is still under way, the run has succeeded. -/
theorem Visiting.succeeds (v : c.Visiting n id request past p) (h : c.Coherent)
    (quiet : ∀ x ∈ history, x.Quiet n)
    (ends : ∀ {e : Controller} {p' : PhaseRun}, e.Coherent → e.Visiting n id request past p' →
      p'.barrier? = none → p'.ahead = [] → e.Ends n id kind state) (ne : state ≠ c.state) :
    (∃ p', (c.after history).Visiting n id request past p') ∨
      c.Succeeded n id history [kind] [state] (c.askedAll request past) := by
  rcases v.after quiet with ⟨goesOn, -⟩ | ⟨before, later, p', rfl, still, v', barrier, ahead⟩
  · exact .inl goesOn
  have last := ends (h.after before) v' barrier ahead
  have quiet' : ∀ x ∈ later, x.Quiet n := fun x member => quiet x (by simp [member])
  have succeeded := last.succeeded (still.state ▸ ne) quiet'
  rw [v'.asked_all ahead, askedAll_of_registry still.registry] at succeeded
  exact .inr (succeeded.prepend still)

theorem boundToSucceed (goesOn : ∀ history, (∀ x ∈ history, x.Quiet n) →
    (∃ request past p, (c.after history).Visiting n id request past p) ∨
      (c.after history).outcome? (.run id) = some .ok) : c.BoundToSucceed n (.run id) := by
  have done : ∀ history, (∀ x ∈ history, x.Quiet n) → (c.after history).Done n →
      (c.after history).outcome? (.run id) = some .ok := by
    intro history quiet done
    rcases goesOn history quiet with ⟨request, past, p, v⟩ | ok
    · exact absurd done v.not_done
    · exact ok
  intro history quiet
  refine ⟨?_, done history quiet, ?_⟩
  · rcases goesOn history quiet with ⟨request, past, p, v⟩ | ok
    · exact .inl v.outcome?_eq_none
    · exact .inr ok
  · obtain ⟨more, quiet', done'⟩ := exists_done (c.after history) n
    refine ⟨more, quiet', ?_⟩
    rw [← after_append] at done' ⊢
    refine done _ (fun x member => ?_) done'
    exact (List.mem_append.1 member).elim (quiet x) (quiet' x)

/-! ## The two runs -/

/-- A suspend of a running server, undisturbed. -/
theorem Resting.suspend (rest : c.Resting n) (h : c.Coherent) (running : c.state = .running)
    (context : SuspendContext) (quiet : ∀ x ∈ history, x.Quiet n) :
    (∃ request past p,
        ((c.step (.suspend context)).after history).Visiting n c.runs.length request past p) ∨
      c.Succeeded n c.runs.length (.suspend context :: history)
        [.suspendStarted, .suspendComplete] [.preSuspend, .suspending, .suspended]
        (c.askedAll (.suspend context) (c.askedAll (.prepare context) c.asked)) := by
  have opened : c.step (.suspend context) = { c with
      state := .preSuspend
      attempt := ⟨c.attempt.generation + 1, .run c.runs.length, context⟩
      runs := c.runs ++ [Run.start (.suspend context) (c.attempt.generation + 1)]
    }.emit .suspendStarted := by
    simp [Controller.step, Controller.suspend, running]
  have fresh : Token.attempt (c.attempt.generation + 1) ∉ c.cancelled := by
    intro cancelled
    have := h.cancelled_le cancelled
    omega
  have told : c.told (c.step (.suspend context)) = [.suspendStarted] := by
    rw [opened]
    exact told_emit rfl rfl
  have state : (c.step (.suspend context)).state = .preSuspend := by rw [opened]; rfl
  have registry : (c.step (.suspend context)).registry = c.registry := by rw [opened]; rfl
  have v : (c.step (.suspend context)).Visiting n c.runs.length (.prepare context) c.asked
      (.start (.prepare context)) := by
    refine rest.visiting (.suspend context) (c.attempt.generation + 1) ?_ ?_ ?_ ?_
    · rw [opened]; rfl
    · rw [opened]; rfl
    · rw [opened]; rfl
    · rw [← Bool.not_eq_true, Run.start, Run.token, isCancelled_attempt, opened]
      exact fresh
  have h' : (c.step (.suspend context)).Coherent := (step_spec c _).coherent h
  rcases v.after quiet with ⟨⟨p', v'⟩, -⟩ | ⟨before, later, p', rfl, still, v', barrier, ahead⟩
  · exact .inl ⟨_, _, p', v'⟩
  obtain ⟨v'', silent, preSuspend, suspending, registry'⟩ :=
    v'.prepared (h'.after before) barrier ahead
  rw [after_append, after_cons]
  have quiet' : ∀ x ∈ later, x.Quiet n := fun x member => quiet x (by simp [member])
  rcases v''.succeeds ((step_spec _ _).coherent (h'.after before)) quiet'
      (fun h v => v.ends_suspend h) (by rw [suspending]; decide) with ⟨p'', goesOn⟩ | succeeded
  · exact .inl ⟨_, _, p'', goesOn⟩
  · have since := still.registry.trans registry
    rw [askedAll_of_registry (registry'.trans since), askedAll_of_registry since] at succeeded
    have prepares := (succeeded.cons registry' (by rw [suspending, preSuspend]; decide)).prepend still
    have whole := prepares.cons registry (by rw [state, running]; decide)
    rw [told, silent, suspending, state] at whole
    exact .inr whole

/-- A resume of a suspended server, undisturbed. -/
theorem Resting.resume (rest : c.Resting n) (h : c.Coherent) (suspended : c.state = .suspended)
    (own : ∀ j, Token.run j ∉ c.cancelled) (context : ResumeContext)
    (quiet : ∀ x ∈ history, x.Quiet n) :
    (∃ request past p,
        ((c.step (.resume context)).after history).Visiting n c.runs.length request past p) ∨
      c.Succeeded n c.runs.length (.resume context :: history) [.suspendCancelled, .resumeComplete]
        [.running] (c.askedAll (.resume context) c.asked) := by
  have notRunning : c.state ≠ .running := by rw [suspended]; decide
  have resumed : c.step (.resume context) = { c.cancelToken (.attempt c.attempt.generation) with
      runs := c.runs ++ [Run.start (.resume context) c.attempt.generation]
    }.emit .suspendCancelled := by
    simp [Controller.step, Controller.resume, notRunning]
  have told : c.told (c.step (.resume context)) = [.suspendCancelled] := by
    rw [resumed]
    exact told_emit (by simp) rfl
  have state : (c.step (.resume context)).state = c.state := by rw [resumed]; simp
  have registry : (c.step (.resume context)).registry = c.registry := by rw [resumed]; simp
  have live : Token.run c.runs.length ∉ (c.step (.resume context)).cancelled :=
    (step_spec c _).notMem_cancelled h (by simp) (by simp) (own _)
  have v : (c.step (.resume context)).Visiting n c.runs.length (.resume context) c.asked
      (.start (.resume context)) := by
    refine rest.visiting (.resume context) c.attempt.generation ?_ ?_ ?_ ?_
    · rw [resumed]; rfl
    · rw [resumed]; simp
    · rw [resumed]; simp
    · simpa [Run.start, Run.token, isCancelled, Token.cancelledBy] using live
  have h' : (c.step (.resume context)).Coherent := (step_spec c _).coherent h
  rcases v.succeeds h' quiet (fun _ v => v.ends_resume) (by rw [state, suspended]; decide) with
    ⟨p', goesOn⟩ | succeeded
  · exact .inl ⟨_, _, p', goesOn⟩
  · right
    rw [askedAll_of_registry registry] at succeeded
    refine ⟨succeeded.resting, succeeded.outcome, ?_, ?_, succeeded.registry.trans registry,
      succeeded.asked⟩
    · rw [tells, told, succeeded.tells]
      rfl
    · rw [stateChanges, if_pos state, succeeded.stateChanges]
      rfl

/-! ## The law -/

/-- **There and back.** Let a running server with no run under way be suspended and, when the
attempt has its outcome, be resumed; meanwhile nobody asks anything else of the controller, and
every call made since returns. Then either run is bound to succeed, in whatever order calls return.
When both have their outcome, it is success; the server has gone through the three states of an
attempt and is running again; everyone who is registered was asked to prepare, to suspend and to
resume, once each and in this order, and nobody else was asked anything; what was told is the
beginning and the end of the attempt and of the resume, and nothing else; and the registry is what
it was. -/
theorem round_trip (config : Config) (listeners : List Listener) (earlier : List Action)
    (running : ((create config listeners).after earlier).state = .running)
    (resolved : ∀ r ∈ ((create config listeners).after earlier).runs, r.outcome? ≠ none)
    (suspendContext : SuspendContext) (resumeContext : ResumeContext) :
    let c := (create config listeners).after earlier
    let n := c.calls.length
    let first := (c.suspend suspendContext).2
    (c.step (.suspend suspendContext)).BoundToSucceed n first ∧
    ∀ during : List Action, (∀ x ∈ during, x.Quiet n) →
      let s := (c.step (.suspend suspendContext)).after during
      let second := (s.resume resumeContext).2
      s.outcome? first ≠ none →
      (s.step (.resume resumeContext)).BoundToSucceed n second ∧
      ∀ later : List Action, (∀ x ∈ later, x.Quiet n) →
        let trip := .suspend suspendContext :: during ++ .resume resumeContext :: later
        let d := c.after trip
        d.outcome? second ≠ none →
        d.outcome? first = some .ok ∧ d.outcome? second = some .ok ∧
        c.stateChanges trip = [.preSuspend, .suspending, .suspended, .running] ∧
        (∀ a, d.asked a = c.asked a ++ if c.registry.priorityOf? a = none then [] else
          [.prepare suspendContext, .suspend suspendContext, .resume resumeContext]) ∧
        c.told d = [.suspendStarted, .suspendComplete, .suspendCancelled, .resumeComplete] ∧
        d.registry = c.registry := by
  intro c n first
  have new : (create config listeners).New := new_create config listeners
  have h : c.Coherent := coherent_after new earlier
  have rest : c.Resting n := by
    refine ⟨fun j s run => resolved s (List.mem_of_getElem? run), Nat.le_refl n, ?_⟩
    intro i k e late made
    have := (List.getElem?_eq_some_iff.1 made).1
    omega
  have handle : first = .run c.runs.length := by
    simp [first, Controller.suspend, show c.state = .running from running]
  have attempt := fun (during : List Action) (quiet : ∀ x ∈ during, x.Quiet n) =>
    rest.suspend h running suspendContext quiet
  refine ⟨?_, ?_⟩
  · rw [handle]
    exact boundToSucceed fun during quiet => (attempt during quiet).imp_right (·.outcome)
  intro during quiet s second ended
  -- The attempt has succeeded.
  obtain ⟨request, past, p, v⟩ | suspended := attempt during quiet
  · rw [handle] at ended
    exact absurd v.outcome?_eq_none ended
  have coherent : s.Coherent := ((step_spec c _).coherent h).after during
  have state : s.state = .suspended := by
    have last := state_after c (.suspend suspendContext :: during)
    rwa [suspended.stateChanges] at last
  have own : ∀ j, Token.run j ∉ s.cancelled := by
    intro j
    have trip : s = (create config listeners).after
        (earlier ++ .suspend suspendContext :: during) := by
      rw [after_append, after_cons]
    rw [trip]
    exact run_notMem_cancelled new _ j
  have handle' : second = .run s.runs.length := by
    simp [second, Controller.resume, state]
  have rest' : s.Resting n := suspended.resting
  have resume := fun (later : List Action) (quiet : ∀ x ∈ later, x.Quiet n) =>
    rest'.resume coherent state own resumeContext quiet
  refine ⟨?_, ?_⟩
  · rw [handle']
    exact boundToSucceed fun later quiet => (resume later quiet).imp_right (·.outcome)
  intro later quiet' trip d ended'
  have whole : d = s.after (.resume resumeContext :: later) := after_append c _ _
  obtain ⟨request, past, p, v⟩ | resumed := resume later quiet'
  · rw [whole, after_cons, handle'] at ended'
    exact absurd v.outcome?_eq_none ended'
  refine ⟨?_, ?_, ?_, ?_, ?_, ?_⟩
  · rw [whole, handle]
    exact (later_after s _).outcome? suspended.outcome
  · rw [whole, handle']
    exact resumed.outcome
  · rw [stateChanges_append, suspended.stateChanges]
    exact congrArg _ resumed.stateChanges
  · intro a
    have registry : s.registry = c.registry := suspended.registry
    have asked : s.asked = c.askedAll (.suspend suspendContext)
        (c.askedAll (.prepare suspendContext) c.asked) := suspended.asked
    rw [whole, resumed.asked, askedAll_of_registry registry, asked]
    cases tracked : c.registry.priorityOf? a <;> simp [askedAll, tracked]
  · rw [told_after, tells_append, suspended.tells]
    exact congrArg _ resumed.tells
  · rw [whole, resumed.registry]
    exact suspended.registry

/-- Two activities of one group, which return in the opposite order to suspend. -/
theorem round_trip_two :
    let a : Activity := ⟨"a", "a"⟩
    let b : Activity := ⟨"b", "b"⟩
    let c := (create { requestedState := .running } []).after [.register a 0, .register b 0]
    let during : List Action := [.turn 0, .finish 0 .returned, .finish 1 .returned, .collect 0 0,
        .collect 0 1] ++ List.replicate 12 (.turn 0) ++ [.finish 3 .returned, .finish 2 .returned,
        .collect 0 3, .collect 0 2] ++ List.replicate 11 (.turn 0)
    let later : List Action := List.replicate 10 (.turn 1) ++ [.finish 4 .returned,
        .finish 5 .returned, .collect 1 5, .collect 1 4] ++ List.replicate 2 (.turn 1)
    let d := c.after (.suspend {} :: during ++ .resume {} :: later)
    d.outcome? (.run 0) = some .ok ∧ d.outcome? (.run 1) = some .ok ∧
      d.asked a = [.prepare {}, .suspend {}, .resume {}] := by
  intro a b c during later d
  have quiet : ∀ x ∈ during, x.Quiet 0 := by simp [during, Action.Quiet]
  have quiet' : ∀ x ∈ later, x.Quiet 0 := by simp [later, Action.Quiet]
  obtain ⟨-, trip⟩ := round_trip { requestedState := .running } []
    [.register a 0, .register b 0] (by decide) (by decide) {} {}
  obtain ⟨-, back⟩ := trip during quiet (by decide +kernel)
  obtain ⟨first, second, -, asked, -⟩ := back later quiet' (by decide +kernel)
  have handle : (c.suspend {}).2 = .run 0 := by decide
  have handle' : (((c.step (.suspend {})).after during).resume {}).2 = .run 1 := by decide +kernel
  rw [handle] at first
  rw [handle'] at second
  exact ⟨first, second, (asked a).trans (by decide)⟩

end Quiesce.Controller
