import Quiesce.Proofs.LiveAttempt
/-!
# Who writes the state

`MayWrite` lists the four ways to change the state. A run changes it only while it stands: an
opening or a reset ends that for all runs there are, and they never succeed.
-/

namespace Quiesce.Controller

variable {c d c₀ : Controller} {x : Action} {history : List Action} {id : Nat} {r : Run}
  {p : PhaseRun} {stage : RunStage}

/-- After a history of `c₀`, the action may change the one state into the other. -/
inductive MayWrite (c₀ : Controller) (history : List Action) : Action → State → State → Prop
  /-- A suspend opens an attempt. -/
  | openAttempt (context : SuspendContext) :
    MayWrite c₀ history (.suspend context) .running .preSuspend
  /-- The run of the latest attempt moves it on: it is not cancelled, and there was no reset since
  it was opened. -/
  | advance (id : Nat) (r : Run) (context : SuspendContext) (s s' : State)
      (standing : c₀.Standing history id (.suspend context))
      (run : (c₀.after history).runs[id]? = some r)
      (uncancelled : (c₀.after history).isCancelled (r.token id) = false)
      (states : s = .preSuspend ∧ s' = .suspending ∨ s = .suspending ∧ s' = .suspended) :
    MayWrite c₀ history (.turn id) s s'
  /-- A resume run that was asked for after the latest attempt was opened, and after the latest
  reset, is through. -/
  | resume (id : Nat) (context : ResumeContext) (s : State)
      (standing : c₀.Standing history id (.resume context)) :
    MayWrite c₀ history (.turn id) s .running
  | reset (s : State) : MayWrite c₀ history .reset s .suspended

/-! ## One action -/

theorem Move.writes (move : c.Move id r p x stage d) (run : c.runs[id]? = some r)
    (active : r.stage = .active p) (h : c.Coherent) (ne : d.state ≠ c.state) :
    x = .turn id ∧ r.generation = c.attempt.generation ∧
      ((∃ context, r.purpose = .suspend context ∧ c.isCancelled (r.token id) = false ∧
          (c.state = .preSuspend ∧ d.state = .suspending ∨
            c.state = .suspending ∧ d.state = .suspended)) ∨
        ∃ context, r.purpose = .resume context ∧ d.state = .running ∧ stage = .resolved .ok) := by
  cases move with
  | prepared context barrier ahead request may =>
    have hp : r.purpose = .suspend context := h.purpose_eq run active request
    obtain ⟨current, uncancelled, state⟩ := mayAdvance_iff.1 may
    exact ⟨rfl, current.symm, .inl ⟨context, hp, uncancelled, .inl ⟨state, rfl⟩⟩⟩
  | suspended context barrier ahead request may =>
    have hp : r.purpose = .suspend context := h.purpose_eq run active request
    obtain ⟨current, uncancelled, state⟩ := mayAdvance_iff.1 may
    exact ⟨rfl, current.symm, .inl ⟨context, hp, uncancelled, .inr ⟨state, rfl⟩⟩⟩
  | resumed context barrier ahead request current =>
    have hp : r.purpose = .resume context := h.purpose_eq run active request
    exact ⟨rfl, current.symm, .inr ⟨context, hp, rfl, rfl⟩⟩
  | failed => exact absurd (by simp [fail, resolve]) ne
  | _ => exact absurd rfl ne

/-- Only a resume run of the current generation ends the suspended state. -/
theorem Step.leaves_suspended (hs : Step c x d) (h : c.Coherent) (suspended : c.state = .suspended) :
    d.state = .suspended ∨ ∃ (id : Nat) (r : Run) (context : ResumeContext),
      c.runs[id]? = some r ∧ r.purpose = .resume context ∧ r.generation = c.attempt.generation ∧
      d.runs[id]? = some { r with stage := .resolved .ok } := by
  by_cases ne : d.state = c.state
  · exact .inl (ne.trans suspended)
  cases hs with
  | opened context running => rw [suspended] at running; cases running
  | reset => exact .inl rfl
  | moved id r p stage run active move =>
    obtain ⟨-, current, ⟨context, -, -, states⟩ | ⟨context, hp, -, hstage⟩⟩ :=
      move.writes run active h ne
    · rw [suspended] at states
      rcases states with ⟨hs, -⟩ | ⟨hs, -⟩ <;> cases hs
    · subst hstage
      exact .inr ⟨id, r, context, run, hp, current, by rw [move.runs, runs_setStage]; simp [run]⟩
  | resuming | cancelled => exact absurd (by simp) ne
  | _ => exact absurd rfl ne

/-! ## Histories -/

theorem mayWrite_of_ne (new : c₀.New) (hs : Step (c₀.after history) x d)
    (ne : d.state ≠ (c₀.after history).state) :
    c₀.MayWrite history x (c₀.after history).state d.state := by
  cases hs with
  | opened context running =>
    rw [running]
    exact .openAttempt context
  | reset => exact .reset _
  | moved id r p stage run active move =>
    obtain ⟨rfl, current, hw⟩ := move.writes run active (coherent_after new history) ne
    have standing := standing_of_generation new run current
    rcases hw with ⟨context, hp, uncancelled, states⟩ | ⟨context, hp, state, -⟩
    · rw [hp] at standing
      exact .advance id r context _ _ standing run uncancelled states
    · rw [hp] at standing
      rw [state]
      exact .resume id context _ standing
  | resuming | cancelled => exact absurd (by simp) ne
  | _ => exact absurd rfl ne

theorem state_of_superseded (new : c₀.New) (hs : Step (c₀.after history) x d)
    (superseded : c₀.Superseded history id) (hx : x.run? = some id) :
    d.state = (c₀.after history).state := by
  rcases hs.of_run? hx with rfl | ⟨r, p, stage, run, active, move⟩
  · rfl
  · by_contra ne
    have current := (move.writes run active (coherent_after new history) ne).2.1
    have past := (superseded_iff new run).1 superseded
    omega

theorem suspended_after_reset (new : c₀.New) (earlier later : List Action) :
    (c₀.after (earlier ++ .reset :: later)).state = .suspended ∨
      ∃ id r context, (c₀.after earlier).runs.length ≤ id ∧
        (c₀.after (earlier ++ .reset :: later)).runs[id]? = some r ∧
        r.purpose = .resume context ∧ r.stage = .resolved .ok := by
  induction later using List.reverseRecOn with
  | nil =>
    rw [after_concat]
    exact .inl rfl
  | append_singleton later x ih =>
    rw [← List.cons_append, ← List.append_assoc, after_concat]
    have hs := step_spec (c₀.after (earlier ++ .reset :: later)) x
    rcases ih with suspended | ⟨id, r, context, hid, run, hp, resolved⟩
    · rcases hs.leaves_suspended (coherent_after new _) suspended with
        suspended | ⟨id, r, context, run, hp, current, run'⟩
      · exact .inl suspended
      · refine .inr ⟨id, _, context, ?_, run', hp, rfl⟩
        -- A run from before the reset would be superseded.
        by_contra hlt
        have := (superseded_iff new run).1 ⟨earlier, .reset, later, rfl, by omega, rfl⟩
        omega
    · obtain ⟨s, run', hl⟩ := hs.later.runs run
      exact .inr ⟨id, s, context, hid, run', hl.purpose.trans hp, hl.resolved _ resolved⟩

/-- **The state has four writers.** Every change of it is one that `MayWrite` lists. A run from
before an opening or a reset never changes it, so that after a reset it stays suspended until a
resume from after that reset has succeeded. -/
theorem state_writers (config : Config) (listeners : List Listener) (history : List Action)
    (x : Action) :
    let c₀ := create config listeners
    let c := c₀.after history
    ((c.step x).state ≠ c.state → c₀.MayWrite history x c.state (c.step x).state) ∧
    (∀ id, c₀.Superseded history id → x.run? = some id → (c.step x).state = c.state) ∧
    (∀ earlier later, history = earlier ++ .reset :: later → c.state = .suspended ∨
      ∃ id r context, (c₀.after earlier).runs.length ≤ id ∧ c.runs[id]? = some r ∧
        r.purpose = .resume context ∧ r.stage = .resolved .ok) := by
  intro c₀ c
  have new : c₀.New := new_create config listeners
  have hs : Step c x (c.step x) := step_spec c x
  refine ⟨mayWrite_of_ne new hs, fun id => state_of_superseded new hs, ?_⟩
  intro earlier later split
  have h := suspended_after_reset new earlier later
  rw [← split] at h
  exact h

/-- A resume is through with all groups: with its last turn it writes the state. If there is a reset
before that turn, it does not. -/
theorem state_writers_stale_resume :
    let c₀ := create { requestedState := .running } []
    let through : List Action := [.suspend {}, .resume {}] ++ List.replicate 10 (.turn 1)
    let reset := through ++ [.reset]
    (((c₀.after through).step (.turn 1)).state = .running ∧
      c₀.MayWrite through (.turn 1) .preSuspend .running) ∧
    c₀.Superseded reset 1 ∧
      ((c₀.after reset).step (.turn 1)).state = (c₀.after reset).state ∧
      ((c₀.after reset).step (.turn 1)).outcome? (.run 1) = some (.error .canceled) := by
  intro c₀ through reset
  have writes : ((c₀.after through).step (.turn 1)).state = .running := by decide
  have before : (c₀.after through).state = .preSuspend := by decide
  have may := (state_writers { requestedState := .running } [] through (.turn 1)).1 (by decide)
  rw [writes, before] at may
  have superseded : c₀.Superseded reset 1 := ⟨through, .reset, [], rfl, by decide, rfl⟩
  have kept := (state_writers { requestedState := .running } [] reset (.turn 1)).2.1 1 superseded rfl
  exact ⟨⟨writes, may⟩, superseded, kept, by decide⟩

end Quiesce.Controller
