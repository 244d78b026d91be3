import Quiesce.Proofs.LiveAttempt
/-!
# Cancelled attempts

A cancelled attempt can only end as canceled. The cancellation may come before its first call,
between two groups, at a barrier in front of ended calls that were not noted yet, between the phases
or after the last group; in each of these the next step of the run looks at the token before it does
anything else (`Move.eq_resolve`). `Stopped` is what this comes to over a whole history.
-/

namespace Quiesce.Controller

variable {c d c₀ : Controller} {x : Action} {history : List Action} {id n : Nat} {r s : Run}
  {p : PhaseRun} {stage : RunStage} {context : SuspendContext}

/-! ## The step of a cancelled attempt -/

theorem Coherent.request_ne_resume (h : c.Coherent) (run : c.runs[id]? = some r)
    (active : r.stage = .active p) (suspend : r.purpose = .suspend context)
    (context' : ResumeContext) : p.request ≠ .resume context' := by
  intro request
  have resume : r.purpose = .resume context' := h.purpose_eq run active request
  rw [resume] at suspend
  cases suspend

/-- All that a cancelled attempt can still do is to be canceled. -/
theorem Move.eq_resolve (move : c.Move id r p x stage d) (h : c.Coherent)
    (run : c.runs[id]? = some r) (active : r.stage = .active p)
    (suspend : r.purpose = .suspend context) (cancelled : c.isCancelled (r.token id) = true) :
    stage = .resolved (.error .canceled) ∧ d = c.resolve id (.error .canceled) := by
  cases move with
  | gaveUp why => exact ⟨rfl, rfl⟩
  | passedBarrier _ live | passedGroup _ _ live | launched _ _ live | succeeded _ _ _ live
  | failed _ _ _ _ _ live =>
    rw [cancelled] at live
    cases live
  | prepared _ _ _ _ may | suspended _ _ _ _ may =>
    rw [(mayAdvance_iff.1 may).2.1] at cancelled
    cases cancelled
  | resumed context' _ _ request _ =>
    exact absurd request (h.request_ne_resume run active suspend context')

/-- An attempt is canceled only if its token is cancelled: one that is still live finds the
generation and the state it expects, so that the check of the token is the only one it can fail. -/
theorem Move.isCancelled (move : c.Move id r p x stage d) (h : c.Coherent)
    (run : c.runs[id]? = some r) (active : r.stage = .active p)
    (suspend : r.purpose = .suspend context) (canceled : stage = .resolved (.error .canceled)) :
    c.isCancelled (r.token id) = true := by
  by_contra hu
  have live : c.Live id r p := ⟨run, active, ⟨context, suspend⟩, by simpa using hu⟩
  cases move with
  | gaveUp why =>
    rcases why with cancelled | ⟨-, -, no⟩
    · exact hu cancelled
    · rw [h.mayComplete live] at no
      cases no
  | failed call b k ending e =>
    cases hp : p.request.phase <;> simp [hp, SuspendError.ofPhase] at canceled
  | _ => cases canceled

/-! ## What a cancelled attempt comes to -/

/-- Suspend run `id` is cancelled; it is unresolved or was canceled, and the calls made for it are
among the first `n`. -/
structure Stopped (c : Controller) (id n : Nat) : Prop where
  run : ∃ r context, c.runs[id]? = some r ∧ r.purpose = .suspend context ∧
    c.isCancelled (r.token id) = true ∧ ∀ o, r.stage = .resolved o → o = .error .canceled
  calls : ∀ {i : Nat} {k : Call} {q : Priority}, c.calls[i]? = some k → k.origin = .run id q → i < n

theorem stopped_of_cancelled (run : c.runs[id]? = some r) (suspend : r.purpose = .suspend context)
    (unresolved : c.outcome? (.run id) = none) (cancelled : c.isCancelled (r.token id) = true) :
    c.Stopped id c.calls.length where
  run := by
    rw [outcome?_run run, Run.outcome?_eq_none] at unresolved
    obtain ⟨p, active⟩ := unresolved
    refine ⟨r, context, run, suspend, cancelled, fun o resolved => ?_⟩
    rw [active] at resolved
    cases resolved
  calls made _ := (List.getElem?_eq_some_iff.1 made).1

theorem Stopped.outcome (h : c.Stopped id n) {o : Outcome} (ho : c.outcome? (.run id) = some o) :
    o = .error .canceled := by
  obtain ⟨r, context, run, -, -, canceled⟩ := h.run
  rw [outcome?_run run, Run.outcome?_eq_some] at ho
  exact canceled o ho

/-- A step of a stopped run has no effect beyond the run. -/
theorem Stopped.eq_or (h : c.Stopped id n) (coherent : c.Coherent) (hs : Step c x d)
    (hx : x.run? = some id) : d = c ∨ d = c.resolve id (.error .canceled) := by
  obtain ⟨r, context, run, suspend, cancelled, -⟩ := h.run
  rcases hs.of_run? hx with rfl | ⟨r', p, stage, run', active, move⟩
  · exact .inl rfl
  · rw [run] at run'
    cases run'
    exact .inr (move.eq_resolve coherent run active suspend cancelled).2

theorem Step.stopped (hs : Step c x d) (coherent : c.Coherent) (h : c.Stopped id n) :
    d.Stopped id n where
  run := by
    obtain ⟨r, context, run, suspend, cancelled, canceled⟩ := h.run
    obtain ⟨s, run', hl⟩ := hs.later.runs run
    refine ⟨s, context, run', hl.purpose.trans suspend, ?_, ?_⟩
    · rw [hl.token_eq]
      exact hs.later.isCancelled cancelled
    · intro o ho
      by_cases same : s = r
      · exact canceled o (same ▸ ho)
      · obtain ⟨p, stage, active, rfl, move⟩ := hs.move_of_ne run run' same
        have hstage := (move.eq_resolve coherent run active suspend cancelled).1
        rw [show stage = .resolved o from ho] at hstage
        cases hstage
        rfl
  calls {i k q} hk ho := by
    by_cases hlt : i < c.calls.length
    · obtain ⟨k', hk', hl⟩ := hs.later.call_of_lt hk hlt
      exact h.calls hk' (hl.origin ▸ ho)
    · -- A new call would be the launch of a run that is not cancelled.
      obtain ⟨r', p, rest, run', -, live, -⟩ := hs.newCall hk ho (Nat.le_of_not_lt hlt)
      obtain ⟨r, context, run, -, cancelled, -⟩ := h.run
      rw [run] at run'
      cases run'
      rw [cancelled] at live
      cases live

theorem stopped_after (coherent : c.Coherent) (h : c.Stopped id n) (later : List Action) :
    (c.after later).Coherent ∧ (c.after later).Stopped id n :=
  after_induction (P := fun c => c.Coherent ∧ c.Stopped id n) ⟨coherent, h⟩
    (fun hs h => ⟨hs.coherent h.1, hs.stopped h.1 h.2⟩) later

theorem cancelled_of_canceled (new : c₀.New) (run : (c₀.after history).runs[id]? = some r)
    (suspend : r.purpose = .suspend context) (canceled : r.stage = .resolved (.error .canceled)) :
    ∃ earlier later s p, history = earlier ++ later ∧ (c₀.after earlier).runs[id]? = some s ∧
      s.stage = .active p ∧ (c₀.after earlier).isCancelled (r.token id) = true := by
  induction history using List.reverseRecOn generalizing r with
  | nil => simp [new.runs] at run
  | append_singleton h x ih =>
    rw [after_concat] at run
    have hs := step_spec (c₀.after h) x
    by_cases hlt : id < (c₀.after h).runs.length
    · obtain ⟨q, hq, hl⟩ := hs.later.run_of_lt run hlt
      have suspend' : q.purpose = .suspend context := hl.purpose ▸ suspend
      by_cases same : r = q
      · subst same
        obtain ⟨earlier, later, s, p, rfl, hp⟩ := ih hq suspend canceled
        exact ⟨earlier, later ++ [x], s, p, by simp, hp⟩
      · obtain ⟨p, stage, active, rfl, move⟩ := hs.move_of_ne hq run same
        exact ⟨h, [x], q, p, rfl, hq, active,
          move.isCancelled (coherent_after new h) hq active suspend' canceled⟩
    · -- A run that has just been started is not resolved.
      obtain ⟨-, starts⟩ := hs.newRun run (Nat.le_of_not_lt hlt)
      cases starts <;> cases canceled

/-- **A cancelled attempt stops.** Once its token is cancelled while it is unresolved, whatever
comes later, the attempt makes no further call; its steps neither write the state nor report
anything; and it can only end as canceled. It ends as canceled only if its token was cancelled while
it was still unresolved. -/
theorem cancelled_attempt_stops (config : Config) (listeners : List Listener)
    (history : List Action) (id : Nat) (r : Run) (context : SuspendContext)
    (run : ((create config listeners).after history).runs[id]? = some r)
    (suspend : r.purpose = .suspend context) :
    let c₀ := create config listeners
    let c := c₀.after history
    (c.outcome? (.run id) = none → c.isCancelled (r.token id) = true → ∀ later,
      (∀ o, (c.after later).outcome? (.run id) = some o → o = .error .canceled) ∧
      (∀ i k q, (c.after later).calls[i]? = some k → k.origin = .run id q → i < c.calls.length) ∧
      (∀ x, x.run? = some id →
        ((c.after later).step x).state = (c.after later).state ∧
        ((c.after later).step x).hub = (c.after later).hub)) ∧
    (c.outcome? (.run id) = some (.error .canceled) → ∃ before after, history = before ++ after ∧
      id < (c₀.after before).runs.length ∧ (c₀.after before).outcome? (.run id) = none ∧
      (c₀.after before).isCancelled (r.token id) = true) := by
  intro c₀ c
  have new : c₀.New := new_create config listeners
  have coherent : c.Coherent := coherent_after new history
  refine ⟨?_, ?_⟩
  · intro unresolved cancelled later
    obtain ⟨coherent', stopped'⟩ :=
      stopped_after coherent (stopped_of_cancelled run suspend unresolved cancelled) later
    refine ⟨fun o => stopped'.outcome, fun i k q => stopped'.calls, ?_⟩
    intro x hx
    rcases stopped'.eq_or coherent' (step_spec _ x) hx with hd | hd
    · rw [hd]
      exact ⟨rfl, rfl⟩
    · rw [hd]
      exact ⟨rfl, rfl⟩
  · intro canceled
    rw [outcome?_run run, Run.outcome?_eq_some] at canceled
    obtain ⟨before, after, s, p, split, hs, active, cancelled⟩ :=
      cancelled_of_canceled new run suspend canceled
    refine ⟨before, after, split, (List.getElem?_eq_some_iff.1 hs).1, ?_, cancelled⟩
    rw [outcome?_run hs, Run.outcome?_eq_none]
    exact ⟨p, active⟩

/-- An attempt cancelled in front of a failed call that it did not note yet. -/
theorem cancelled_attempt_stops_at_barrier :
    let c := (create { requestedState := .running } []).after
      [.register ⟨"a", "a"⟩ 0, .suspend {}, .turn 0, .finish 0 (.failed (.fail "no")), .cancel 1]
    c.outcome? (.run 0) = none ∧ c.isCancelled (.attempt 1) = true ∧
      ∀ later o, (c.after later).outcome? (.run 0) = some o → o = .error .canceled := by
  intro c
  have run : c.runs[0]? = some ⟨.suspend {}, 1, .active ⟨.prepare {}, Priority.all.tail,
    some ⟨.first, .child (.attempt 1) 0, [0]⟩⟩⟩ := by decide
  have unresolved : c.outcome? (.run 0) = none := by decide
  have cancelled : c.isCancelled (.attempt 1) = true := by decide
  refine ⟨unresolved, cancelled, fun later o => ?_⟩
  have law := cancelled_attempt_stops _ _ _ 0 _ {} run rfl
  exact (law.1 unresolved cancelled later).1 o

end Quiesce.Controller
