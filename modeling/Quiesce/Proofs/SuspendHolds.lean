import Quiesce.Proofs.Quiescence
/-!
# How long a successful suspend holds

Only a resume run of the current generation makes the server run again (`resolves_of_running`). So a
suspend that opens an attempt is safe from every resume that was asked for before. A suspend that
joins the attempt in flight is safe from them as well: a resume of this generation would have
cancelled the attempt, which then does not succeed.

A suspend that joins an attempt which is over is handed an old success, and the generation stays
what it is. If a resume run is under way at that moment, this run goes on and the server runs again
(`joined_suspend_is_undone`). `suspend_holds` says that this is the only way.
-/

namespace Quiesce.Controller

variable {c c₀ : Controller} {x : Action} {before later : List Action} {j : Nat} {s : Run}
  {context : ResumeContext}

/-! ## The server runs again -/

theorem exists_restart (notRunning : c.state ≠ .running) (running : (c.after later).state = .running) :
    ∃ earlier x rest, later = earlier ++ x :: rest ∧ (c.after earlier).state ≠ .running ∧
      ((c.after earlier).step x).state = .running := by
  induction later generalizing c with
  | nil => exact absurd running notRunning
  | cons x later ih =>
    by_cases now : (c.step x).state = .running
    · exact ⟨[], x, later, rfl, notRunning, now⟩
    · obtain ⟨earlier, y, rest, rfl, restart⟩ := ih now running
      exact ⟨x :: earlier, y, rest, rfl, restart⟩

/-- The server runs again by the success of a resume run that has the current generation. -/
theorem resolves_of_running (h : c.Coherent) (notRunning : c.state ≠ .running)
    (running : (c.step x).state = .running) :
    ∃ j s context, c.runs[j]? = some s ∧ s.purpose = .resume context ∧
      s.generation = c.attempt.generation ∧ c.Resolves x j .ok := by
  have hs := step_spec c x
  generalize hd : c.step x = d at hs running
  cases hs with
  | opened | reset => cases running
  | moved id r p stage run active move =>
    have ne : d.state ≠ c.state := fun same => notRunning (same ▸ running)
    obtain ⟨-, current, ⟨context, -, -, states⟩ | ⟨context, resume, -, rfl⟩⟩ :=
      move.writes run active h ne
    · rw [running] at states
      rcases states with ⟨-, state⟩ | ⟨-, state⟩ <;> cases state
    · exact ⟨id, r, context, run, resume, current, Move.resolves (hd ▸ move) run active⟩
  | resuming | cancelled => exact absurd (by simpa using running) notRunning
  | _ => exact absurd running notRunning

/-- Unless a resume is asked for, the server runs again by a resume run that was under way, and
whose generation has been the current one all along. -/
theorem under_way_of_running (new : c₀.New) (notRunning : (c₀.after before).state ≠ .running)
    (unresumed : ∀ context, Action.resume context ∉ later)
    (running : ((c₀.after before).after later).state = .running) :
    ∃ j s context, (c₀.after before).runs[j]? = some s ∧ s.purpose = .resume context ∧
      s.generation = (c₀.after before).attempt.generation ∧ s.outcome? = none ∧
      ((c₀.after before).after later).outcome? (.run j) = some .ok := by
  obtain ⟨earlier, x, rest, rfl, notRunning', restart⟩ := exists_restart notRunning running
  have coherent : ((c₀.after before).after earlier).Coherent :=
    (coherent_after new before).after earlier
  obtain ⟨j, s, context, run', resume, current, resolves⟩ :=
    resolves_of_running coherent notRunning' restart
  obtain ⟨t, run, hl⟩ :=
    resume_run_of_after (fun context hx => unresumed context (by simp [hx])) run' resume
  have known := generation_le new run
  have grown := (later_after (c₀.after before) earlier).generation_le
  have same := hl.generation
  refine ⟨j, t, context, run, hl.purpose ▸ resume, by omega, ?_, ?_⟩
  · exact hl.unresolved ((outcome?_run run').symm.trans resolves.1)
  · rw [after_append, after_cons]
    exact (later_after _ rest).outcome? resolves.2

/-! ## The attempt that a suspend shares -/

/-- A resume run that was under way when a suspend was asked for and still has the current
generation after it: the suspend opened no attempt. -/
theorem joins_of_under_way (h : c.Coherent) {context' : SuspendContext}
    (run : (c.step (.suspend context')).runs[j]? = some s) (resume : s.purpose = .resume context)
    (current : s.generation = (c.step (.suspend context')).attempt.generation) :
    c.state ≠ .running := by
  intro running
  have runs : (c.step (.suspend context')).runs =
      c.runs ++ [Run.start (.suspend context') (c.attempt.generation + 1)] := by
    simp [step, suspend, running]
  have opened : (c.step (.suspend context')).attempt.generation = c.attempt.generation + 1 := by
    simp [step, suspend, running]
  rcases run_of_append runs run with ⟨-, rfl⟩ | run
  · cases resume
  · have := h.generation_le run
    omega

/-- Beside a resume run of its generation an attempt does not succeed any more: if it has succeeded
in the end, it had succeeded before. -/
theorem ok_of_under_way (new : c₀.New) (run : (c₀.after before).runs[j]? = some s)
    (resume : s.purpose = .resume context)
    (current : s.generation = (c₀.after before).attempt.generation)
    (ok : ((c₀.after before).after later).outcome? (c₀.after before).attempt.completion =
      some .ok) :
    (c₀.after before).outcome? (c₀.after before).attempt.completion = some .ok := by
  have coherent := coherent_after new before
  cases attempt : (c₀.after before).attempt.completion with
  | ready => rfl
  | run i =>
    rw [attempt] at ok
    obtain ⟨r, run', suspend, -⟩ := coherent.attempt attempt
    cases now : (c₀.after before).outcome? (.run i) with
    | some o =>
      have same := (later_after (c₀.after before) later).outcome? now
      exact same.symm.trans ok
    | none =>
      -- It would have to be live at its success, and so had been live beside the resume run.
      obtain ⟨earlier, x, rest, rfl, resolves⟩ := resolved_in now ok
      have grow := later_after (c₀.after before) earlier
      obtain ⟨r', run'', hl⟩ := grow.runs run'
      have coherent' := coherent.after earlier
      obtain ⟨p, active, move⟩ := resolves.move_of_run run''
      obtain ⟨-, -, live, -⟩ :=
        move.suspended_of_ok coherent' run'' active (hl.purpose.trans suspend)
      obtain ⟨q, live'⟩ := live.before grow run'
      exact absurd live' (coherent.not_live_of_resume run resume current.symm)

/-! ## The law -/

/-- **A successful suspend holds until the next resume.** Take any suspend, and whatever comes later
without another resume. If the outcome that the suspend was given a handle on is a success by then,
the server is not running; the one exception is a suspend that joined an attempt which had succeeded
before, while a resume run was under way that had been asked for since the latest opening and reset,
and which has succeeded in the meantime. -/
theorem suspend_holds (config : Config) (listeners : List Listener) (before : List Action)
    (context : SuspendContext) (later : List Action)
    (unresumed : ∀ context, Action.resume context ∉ later) :
    let c₀ := create config listeners
    let b := c₀.after before
    let completion := (b.suspend context).2
    let d := (b.step (.suspend context)).after later
    d.outcome? completion = some .ok → d.state ≠ .running ∨
      b.state ≠ .running ∧ b.outcome? completion = some .ok ∧
        ∃ j context', c₀.Standing before j (.resume context') ∧ b.outcome? (.run j) = none ∧
          d.outcome? (.run j) = some .ok := by
  intro c₀ b completion d ok
  have new : c₀.New := new_create config listeners
  have suspended : b.step (.suspend context) = c₀.after (before ++ [.suspend context]) :=
    (after_concat c₀ before _).symm
  by_cases running : d.state = .running
  swap
  · exact .inl running
  right
  have notRunning : (b.step (.suspend context)).state ≠ .running := by
    by_cases opens : b.state = .running <;> simp [step, suspend, opens]
  obtain ⟨j, s, context', run, resume, current, unresolved, resumed⟩ :=
    under_way_of_running new (suspended ▸ notRunning) unresumed (suspended ▸ running)
  rw [← suspended] at run current resumed
  have joins : b.state ≠ .running :=
    joins_of_under_way (coherent_after new before) run resume current
  have unchanged : b.step (.suspend context) = b := by simp [step, suspend, joins]
  have shared : completion = b.attempt.completion := by simp [completion, suspend, joins]
  have same : d = b.after later := congrArg (·.after later) unchanged
  rw [unchanged] at run current
  rw [same, shared] at ok
  have early := ok_of_under_way new run resume current ok
  refine ⟨joins, shared ▸ early, j, context', ?_, (outcome?_run run).trans unresolved, resumed⟩
  have standing := standing_of_generation new run current
  rwa [resume] at standing

/-- Of two resume runs the second one has made the server run; the first one does not undo the
suspend that follows. -/
theorem suspend_holds_stale_resume :
    let before : List Action := [.resume {}, .resume {}] ++ List.replicate 11 (.turn 1)
    let later : List Action := List.replicate 22 (.turn 2) ++ List.replicate 11 (.turn 0)
    let b := (create {} []).after before
    let d := (b.step (.suspend {})).after later
    b.outcome? (.run 0) = none ∧ d.outcome? (b.suspend {}).2 = some .ok ∧ d.state ≠ .running := by
  intro before later b d
  have ok : d.outcome? (b.suspend {}).2 = some .ok := by decide +kernel
  refine ⟨by decide, ok, ?_⟩
  rcases suspend_holds {} [] before {} later (by simp [later]) ok with holds | ⟨joins, -⟩
  · exact holds
  · exact absurd (by decide) joins

/-- A suspend succeeds at once, and then the server runs again, though nobody asked for a resume
since. -/
theorem joined_suspend_is_undone :
    let before : List Action := [.register ⟨"a", "a"⟩ 0, .finish 0 .returned, .resume {}] ++
      List.replicate 10 (.turn 0)
    let later : List Action := [.finish 1 .returned, .collect 0 1, .turn 0, .turn 0]
    let b := (create {} []).after before
    let e := b.step (.suspend {})
    e.outcome? (b.suspend {}).2 = some .ok ∧ e.state ≠ .running ∧
      (∀ context, Action.resume context ∉ later) ∧ (e.after later).state = .running := by
  intro before later b e
  exact ⟨by decide, by decide, by simp [later], by decide⟩

end Quiesce.Controller
