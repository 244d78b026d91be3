import Quiesce.Proofs.Calls
import Quiesce.Proofs.GroupOrder
import Quiesce.Proofs.Reports
import Quiesce.Proofs.Resolution
import Quiesce.Proofs.StateWrites
/-!
# What the outcome of an attempt tells

A suspend run does not look at the state when it fails, and it reports its success after it has
written the state. That outcome, state and events agree nevertheless is due to the attempt being
live when it fails or succeeds: `Coherent` ties the state of a live attempt to its phase. After a
failure no attempt is live any more and the server is not running, so that no later suspend can move
the state (`Stranded`).
-/

namespace Quiesce.Controller

variable {c d c₀ : Controller} {x : Action} {history : List Action} {id : Nat} {r : Run}
  {p : PhaseRun} {stage : RunStage} {e : SuspendError} {context : SuspendContext}

/-- A step of run `id` has taken the state from the one to the other. -/
def MovedState (c₀ : Controller) (history : List Action) (id : Nat) (s s' : State) : Prop :=
  ∃ before x rest, history = before ++ x :: rest ∧ x.run? = some id ∧
    (c₀.after before).state = s ∧ ((c₀.after before).step x).state = s'

/-- The action resets, or it is the success of a resume run. -/
def Restores (c : Controller) (x : Action) : Prop :=
  x = .reset ∨ ∃ id r context, c.runs[id]? = some r ∧ r.purpose = .resume context ∧
    c.Resolves x id .ok

/-! ## Success -/

theorem MovedState.concat {s s' : State} (moved : c₀.MovedState history id s s') (x : Action) :
    c₀.MovedState (history ++ [x]) id s s' := by
  obtain ⟨before, y, rest, rfl, moved⟩ := moved
  exact ⟨before, y, rest ++ [x], by simp, moved⟩

/-- A run in its suspend phase has ended its prepare phase by the first transition. -/
theorem movedState_preSuspend (new : c₀.New) (run : (c₀.after history).runs[id]? = some r)
    (active : r.stage = .active p) (suspends : p.request.phase = .suspend) :
    c₀.MovedState history id .preSuspend .suspending := by
  refine active_induction new
    (P := fun h p => p.request.phase = .suspend → c₀.MovedState h id .preSuspend .suspending)
    ?_ ?_ ?_ run active suspends
  · intro h purpose suspends
    cases purpose <;> cases suspends
  · intro h x p ih suspends
    exact (ih suspends).concat x
  · intro h x d r p p' hd run active move ih suspends
    -- No other move enters the suspend phase.
    cases move with
    | prepared context barrier ahead request may =>
      exact ⟨h, .turn id, [], rfl, rfl, (mayAdvance_iff.1 may).2.2, congrArg Controller.state hd⟩
    | _ => exact (ih suspends).concat _

theorem Move.ok_of_suspended (move : c.Move id r p x stage d) (before : c.state = .suspending)
    (after : d.state = .suspended) : stage = .resolved .ok := by
  cases move with
  | suspended | resumed => rfl
  | prepared => cases after
  | failed => simp [fail, resolve, before] at after
  | _ =>
    have same : c.state = .suspended := after
    rw [before] at same
    cases same

theorem outcome?_of_movedState (moved : c₀.MovedState history id .suspending .suspended) :
    (c₀.after history).outcome? (.run id) = some .ok := by
  obtain ⟨before, x, rest, rfl, own, suspending, suspended⟩ := moved
  have hs := step_spec (c₀.after before) x
  rcases hs.of_run? own with same | ⟨r, p, stage, run, active, move⟩
  · rw [same, suspending] at suspended
    cases suspended
  · have ok := move.ok_of_suspended suspending suspended
    subst ok
    rw [after_append, after_cons]
    exact (later_after _ rest).outcome? (move.resolves run active).2

theorem movedState_of_ok (new : c₀.New) (run : (c₀.after history).runs[id]? = some r)
    (suspend : r.purpose = .suspend context)
    (ok : (c₀.after history).outcome? (.run id) = some .ok) :
    c₀.MovedState history id .preSuspend .suspending ∧
      c₀.MovedState history id .suspending .suspended := by
  obtain ⟨before, x, rest, rfl, success⟩ := resolved_at new ok
  obtain ⟨s, p, run', active, move⟩ := success.move
  have hl := later_after (c₀.after before) (x :: rest)
  rw [after_append] at run
  obtain ⟨s', run'', hsr⟩ := hl.runs run'
  rw [run] at run''
  cases run''
  have coherent := coherent_after new before
  obtain ⟨rfl, rfl, live, hd⟩ :=
    move.suspended_of_ok coherent run' active (hsr.purpose ▸ suspend)
  have state : some State.suspending = some (c₀.after before).state := (coherent.live live).2.2
  obtain ⟨before', y, rest', rfl, first⟩ := movedState_preSuspend new run' active rfl
  exact ⟨⟨before', y, rest' ++ .turn id :: rest, by simp, first⟩,
    ⟨_, .turn id, rest, rfl, rfl, (Option.some.inj state).symm, congrArg Controller.state hd⟩⟩

/-! ## Failure -/

theorem Move.failed_of_error (move : c.Move id r p x (.resolved (.error e)) d)
    (ne : e ≠ .canceled) :
    c.isCancelled (r.token id) = false ∧ d.state = c.state ∧
      ∃ source, e = .ofPhase p.request.phase source := by
  cases move with
  | gaveUp why => exact absurd rfl ne
  | failed call b k ending source live barrier pending made ended error =>
    exact ⟨live, by simp [fail, resolve], source, rfl⟩

theorem Move.state_of_error (move : c.Move id r p x (.resolved (.error e)) d) (h : c.Coherent)
    (run : c.runs[id]? = some r) (active : r.stage = .active p)
    (suspend : r.purpose = .suspend context) (ne : e ≠ .canceled) :
    c.Live id r p ∧
      ((∃ source, e = .aborted source) ∧ p.request.phase = .prepare ∧ d.state = .preSuspend ∨
        (∃ source, e = .suspendFailed source) ∧ d.state = .suspending) := by
  obtain ⟨uncancelled, same, source, rfl⟩ := move.failed_of_error ne
  have live : c.Live id r p := ⟨run, active, ⟨context, suspend⟩, uncancelled⟩
  have state := (h.live live).2.2
  refine ⟨live, ?_⟩
  rw [same]
  cases request : p.request with
  | prepare context =>
    rw [request] at state
    exact .inl ⟨⟨source, rfl⟩, rfl, (Option.some.inj state).symm⟩
  | suspend context =>
    rw [request] at state
    exact .inr ⟨⟨source, rfl⟩, (Option.some.inj state).symm⟩
  | resume context =>
    rw [request] at state
    cases state

/-! ## After a failure -/

/-- The server is not running, and no attempt is live. -/
structure Stranded (c : Controller) : Prop where
  coherent : c.Coherent
  notRunning : c.state ≠ .running
  quiet : ∀ id r p, ¬ c.Live id r p

/-- Only an opening makes an attempt live. -/
theorem Step.quiet (hs : Step c x d) (notRunning : c.state ≠ .running)
    (quiet : ∀ id r p, ¬ c.Live id r p) (id : Nat) (r : Run) (p : PhaseRun) : ¬ d.Live id r p := by
  intro live
  by_cases hlt : id < c.runs.length
  · obtain ⟨s, run, -⟩ := hs.later.run_of_lt live.run hlt
    obtain ⟨q, live'⟩ := live.before hs.later run
    exact quiet id s q live'
  · obtain ⟨-, starts⟩ := hs.newRun live.run (Nat.le_of_not_lt hlt)
    obtain ⟨context, suspend⟩ := live.suspend
    cases starts with
    | suspend context' running => exact notRunning running
    | resume context' => cases suspend

theorem Move.stranded (move : c.Move id r p x (.resolved (.error e)) d) (h : c.Coherent)
    (run : c.runs[id]? = some r) (active : r.stage = .active p)
    (suspend : r.purpose = .suspend context) (ne : e ≠ .canceled) : d.Stranded := by
  have hs : Step c x d := .moved id r p _ run active move
  obtain ⟨live, state⟩ := move.state_of_error h run active suspend ne
  refine ⟨hs.coherent h, ?_, fun j s q other => ?_⟩
  · rcases state with ⟨-, -, state⟩ | ⟨-, state⟩ <;> simp [state]
  · -- The run has its outcome, and any other one would have been live beside it.
    rcases run_of_setStage run move.runs other.run with ⟨-, rfl⟩ | ⟨ne, run'⟩
    · cases other.active
    · obtain ⟨q', other'⟩ := other.before hs.later run'
      exact ne (h.live_unique other' live)

theorem Stranded.step (h : c.Stranded) (x : Action) :
    c.Restores x ∨ (c.step x).state = c.state ∧ (c.step x).Stranded := by
  have hs := step_spec c x
  by_cases same : (c.step x).state = c.state
  · exact .inr ⟨same, hs.coherent h.coherent, same ▸ h.notRunning, hs.quiet h.notRunning h.quiet⟩
  · left
    generalize hd : c.step x = d at hs same
    cases hs with
    | reset => exact .inl rfl
    | opened context running => exact absurd running h.notRunning
    | moved id r p stage run active move =>
      obtain ⟨-, -, ⟨context, suspend, uncancelled, -⟩ | ⟨context, resume, -, rfl⟩⟩ :=
        move.writes run active h.coherent same
      · exact absurd ⟨run, active, ⟨context, suspend⟩, uncancelled⟩ (h.quiet id r p)
      · exact .inr ⟨id, r, context, run, resume, Move.resolves (hd ▸ move) run active⟩
    | resuming | cancelled => exact absurd (by simp) same
    | _ => exact absurd rfl same

theorem Stranded.state_after (h : c.Stranded) (later : List Action) :
    (c.after later).state = c.state ∨
      ∃ before y rest, later = before ++ y :: rest ∧ (c.after before).Restores y := by
  induction later generalizing c with
  | nil => exact .inl rfl
  | cons x later ih =>
    rcases h.step x with restores | ⟨same, stranded⟩
    · exact .inr ⟨[], x, later, rfl, restores⟩
    · rcases ih stranded with stays | ⟨before, y, rest, rfl, restores⟩
      · exact .inl (stays.trans same)
      · exact .inr ⟨x :: before, y, rest, rfl, restores⟩

/-! ## The law -/

/-- **Outcome, state and events of an attempt agree.** An attempt has succeeded exactly if it made
both transitions itself; the step of its success leaves the state suspended and tells of that alone.
An attempt that fails, and is not canceled, tells of its failure alone, leaves the state of the
phase that failed, and has called nobody to suspend if this was the prepare phase; the state then
stays there until a resume run succeeds or a reset. In all its steps together an attempt tells what
its outcome calls for, once; and whatever is no step of a run tells of no success or failure. -/
theorem attempt_outcome_agrees (config : Config) (listeners : List Listener)
    (history : List Action) (id : Nat) (r : Run) (context : SuspendContext)
    (run : ((create config listeners).after history).runs[id]? = some r)
    (suspend : r.purpose = .suspend context) :
    let c₀ := create config listeners
    let c := c₀.after history
    (c.outcome? (.run id) = some .ok ↔ c₀.MovedState history id .preSuspend .suspending ∧
      c₀.MovedState history id .suspending .suspended) ∧
    c₀.reports id history = r.report?.toList ∧
    ∀ x,
      (x.run? = none → .suspendComplete ∉ c.told (c.step x) ∧
        .suspendFailed ∉ c.told (c.step x)) ∧
      (c.Resolves x id .ok → (c.step x).state = .suspended ∧
        c.told (c.step x) = [.suspendComplete]) ∧
      ∀ e, c.Resolves x id (.error e) → e ≠ .canceled → c.told (c.step x) = [.suspendFailed] ∧
        ((∃ source, e = .aborted source) ∧ (c.step x).state = .preSuspend ∧
            (∀ (i : Nat) (k : Call) (q : Priority), (c.step x).calls[i]? = some k →
              k.origin = .run id q → k.request.phase ≠ .suspend) ∨
          (∃ source, e = .suspendFailed source) ∧ (c.step x).state = .suspending) ∧
        ∀ later, ((c.step x).after later).state = (c.step x).state ∨
          ∃ before y rest, later = before ++ y :: rest ∧
            ((c.step x).after before).Restores y := by
  intro c₀ c
  have new : c₀.New := new_create config listeners
  have coherent : c.Coherent := coherent_after new history
  refine ⟨⟨movedState_of_ok new run suspend, fun moved => outcome?_of_movedState moved.2⟩, ?_,
    fun x => ⟨fun request => ?_, fun success => ?_, fun e failure ne => ?_⟩⟩
  · rw [reports_eq new, run, Option.bind_some]
  · rcases (step_spec c x).told_of_request request with silent | ⟨kind, told, other⟩
    · simp [silent]
    · rw [told]
      constructor <;>
        · intro member
          cases List.mem_singleton.1 member
          simp at other
  · obtain ⟨p, active, move⟩ := success.move_of_run run
    obtain ⟨-, -, -, hd⟩ := move.suspended_of_ok coherent run active suspend
    refine ⟨congrArg Controller.state hd, ?_⟩
    rw [move.told coherent run active]
    simp [Run.report?, suspend]
  · obtain ⟨p, active, move⟩ := failure.move_of_run run
    obtain ⟨live, state⟩ := move.state_of_error coherent run active suspend ne
    refine ⟨?_, ?_, (move.stranded coherent run active suspend ne).state_after⟩
    · rw [move.told coherent run active]
      rcases state with ⟨⟨source, rfl⟩, -⟩ | ⟨⟨source, rfl⟩, -⟩ <;> simp [Run.report?, suspend]
    · refine state.imp_left ?_
      rintro ⟨aborted, prepares, state⟩
      refine ⟨aborted, state, fun i k q hk origin => ?_⟩
      rw [move.calls_of_resolved] at hk
      exact ((allInOrder_after new history).order run active).prepare prepares hk origin

/-- A failure to suspend, which a further suspend does not mend. -/
theorem attempt_outcome_agrees_failed :
    let c := (create { requestedState := .running } []).after <|
      [.register ⟨"a", "a"⟩ 0, .suspend {}, .turn 0, .finish 0 .returned, .collect 0 0] ++
        List.replicate 12 (.turn 0) ++ [.finish 1 (.failed (.fail "no"))]
    let d := c.step (.collect 0 1)
    c.Resolves (.collect 0 1) 0 (.error (.suspendFailed (.fail "no"))) ∧ d.state = .suspending ∧
      c.told d = [.suspendFailed] ∧ (d.step (.suspend {})).state = .suspending := by
  intro c d
  have run : c.runs[0]? = some ⟨.suspend {}, 1, .active ⟨.suspend {}, Priority.all.tail,
      some ⟨.first, .child (.attempt 1) 1, [1]⟩⟩⟩ := by decide +kernel
  have failure : c.Resolves (.collect 0 1) 0 (.error (.suspendFailed (.fail "no"))) :=
    ⟨by decide +kernel, by decide +kernel⟩
  obtain ⟨-, -, law⟩ := attempt_outcome_agrees _ _ _ 0 _ {} run rfl
  obtain ⟨told, state, stays⟩ := (law (.collect 0 1)).2.2 _ failure (by simp)
  have suspending : d.state = .suspending := by
    rcases state with ⟨⟨source, aborted⟩, -⟩ | ⟨-, state⟩
    · cases aborted
    · exact state
  refine ⟨failure, suspending, told, ?_⟩
  rcases stays [.suspend {}] with same | ⟨before, y, rest, split, restores⟩
  · exact same.trans suspending
  · -- A suspend is neither a reset nor a step of a run.
    cases before with
    | cons z before => simp at split
    | nil =>
      cases split
      rcases restores with reset | ⟨j, s, context, -, -, success⟩
      · cases reset
      · obtain ⟨s, p, -, -, move⟩ := success.move
        cases move.run?_eq

end Quiesce.Controller
