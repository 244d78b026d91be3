import Quiesce.Proofs.LiveAttempt
/-!
# How runs are resolved

`Resolves` is the moment at which a run gets its outcome. A run gets it by a move of its own
(`Resolves.move`), and an outcome that is there was given by some action of the history
(`resolved_at`). A success is the last move of the last phase (`Move.suspended_of_ok`,
`Move.resumed_of_ok`).
-/

namespace Quiesce.Controller

variable {c d c₀ : Controller} {x : Action} {history : List Action} {id : Nat} {r s : Run}
  {p q : PhaseRun} {o : Outcome}

/-- The action gives run `id` its outcome. -/
def Resolves (c : Controller) (x : Action) (id : Nat) (o : Outcome) : Prop :=
  c.outcome? (.run id) = none ∧ (c.step x).outcome? (.run id) = some o

theorem outcome?_run_eq_some :
    c.outcome? (.run id) = some o ↔ ∃ r, c.runs[id]? = some r ∧ r.stage = .resolved o := by
  simp only [outcome?, Option.bind_eq_some_iff, Run.outcome?_eq_some]

theorem Resolves.move (h : c.Resolves x id o) :
    ∃ r p, c.runs[id]? = some r ∧ r.stage = .active p ∧
      c.Move id r p x (.resolved o) (c.step x) := by
  obtain ⟨s, after, resolved⟩ := outcome?_run_eq_some.1 h.2
  have hs := step_spec c x
  by_cases hlt : id < c.runs.length
  · obtain ⟨r, before, -⟩ := hs.later.run_of_lt after hlt
    have same : s ≠ r := by
      rintro rfl
      have unresolved := h.1
      rw [outcome?_run_eq_some.2 ⟨s, before, resolved⟩] at unresolved
      cases unresolved
    obtain ⟨p, stage, active, rfl, move⟩ := hs.move_of_ne before after same
    cases resolved
    exact ⟨r, p, before, active, move⟩
  · obtain ⟨-, starts⟩ := hs.newRun after (Nat.le_of_not_lt hlt)
    cases starts <;> cases resolved

theorem Resolves.move_of_run (h : c.Resolves x id o) (run : c.runs[id]? = some r) :
    ∃ p, r.stage = .active p ∧ c.Move id r p x (.resolved o) (c.step x) := by
  obtain ⟨s, p, run', active, move⟩ := h.move
  rw [run] at run'
  cases run'
  exact ⟨p, active, move⟩

theorem Move.resolves (move : c.Move id r p x (.resolved o) (c.step x))
    (run : c.runs[id]? = some r) (active : r.stage = .active p) : c.Resolves x id o := by
  refine ⟨?_, outcome?_run_eq_some.2 ⟨{ r with stage := .resolved o }, ?_, rfl⟩⟩
  · rw [outcome?_run run, Run.outcome?_eq_none]
    exact ⟨p, active⟩
  · rw [move.runs, runs_setStage]
    simp [run]

theorem Move.calls_of_resolved (move : c.Move id r p x (.resolved o) d) : d.calls = c.calls := by
  cases move <;> simp [resolve, fail]

theorem Later.outcome? (later : c.Later d) (resolved : c.outcome? (.run id) = some o) :
    d.outcome? (.run id) = some o := by
  obtain ⟨r, run, stage⟩ := outcome?_run_eq_some.1 resolved
  obtain ⟨s, run', hl⟩ := later.runs run
  exact outcome?_run_eq_some.2 ⟨s, run', hl.resolved _ stage⟩

theorem resolved_in {later : List Action} (unresolved : c.outcome? (.run id) = none)
    (resolved : (c.after later).outcome? (.run id) = some o) :
    ∃ before x rest, later = before ++ x :: rest ∧ (c.after before).Resolves x id o := by
  induction later generalizing c with
  | nil =>
    rw [after_nil, unresolved] at resolved
    cases resolved
  | cons x later ih =>
    cases now : (c.step x).outcome? (.run id) with
    | none =>
      obtain ⟨before, y, rest, rfl, hy⟩ := ih now resolved
      exact ⟨x :: before, y, rest, rfl, hy⟩
    | some o' =>
      -- The outcome is there already, and does not change any more.
      have same := (later_after (c.step x) later).outcome? now
      rw [← after_cons, resolved] at same
      cases same
      exact ⟨[], x, later, rfl, unresolved, now⟩

theorem resolved_at (new : c₀.New) (resolved : (c₀.after history).outcome? (.run id) = some o) :
    ∃ before x rest, history = before ++ x :: rest ∧ (c₀.after before).Resolves x id o :=
  resolved_in (by simp [outcome?, new.runs]) resolved

/-! ## Success -/

/-- A suspend run succeeds at the last of its suspend phase, as the attempt that is live. -/
theorem Move.suspended_of_ok (move : c.Move id r p x (.resolved .ok) d) (h : c.Coherent)
    (run : c.runs[id]? = some r) (active : r.stage = .active p) {context : SuspendContext}
    (suspend : r.purpose = .suspend context) :
    x = .turn id ∧ p = ⟨.suspend context, [], none⟩ ∧ c.Live id r p ∧
      d = ({ c with state := .suspended }.resolve id .ok).emit .suspendComplete := by
  cases move with
  | suspended context' barrier ahead request may =>
    have purpose : r.purpose = .suspend context' := h.purpose_eq run active request
    rw [suspend] at purpose
    cases purpose
    refine ⟨rfl, ?_, live_of_mayAdvance run active suspend may, rfl⟩
    rw [← request, ← barrier, ← ahead]
  | resumed context' barrier ahead request current =>
    have purpose : r.purpose = .resume context' := h.purpose_eq run active request
    rw [suspend] at purpose
    cases purpose

/-- A resume run succeeds when it is through with all groups and still has the current generation.
-/
theorem Move.resumed_of_ok (move : c.Move id r p x (.resolved .ok) d) (h : c.Coherent)
    (run : c.runs[id]? = some r) (active : r.stage = .active p) {context : ResumeContext}
    (resume : r.purpose = .resume context) :
    x = .turn id ∧ p = ⟨.resume context, [], none⟩ ∧ c.attempt.generation = r.generation ∧
      d = ({ c with state := .running }.resolve id .ok).emit .resumeComplete := by
  cases move with
  | suspended context' barrier ahead request may =>
    have purpose : r.purpose = .suspend context' := h.purpose_eq run active request
    rw [resume] at purpose
    cases purpose
  | resumed context' barrier ahead request current =>
    have purpose : r.purpose = .resume context' := h.purpose_eq run active request
    rw [resume] at purpose
    cases purpose
    refine ⟨rfl, ?_, current, rfl⟩
    rw [← request, ← barrier, ← ahead]

/-! ## A live attempt before and after -/

theorem Live.before (h : d.Live id s q) (later : c.Later d) (run : c.runs[id]? = some r) :
    ∃ p, c.Live id r p := by
  obtain ⟨s', run', hl⟩ := later.runs run
  rw [h.run] at run'
  cases run'
  obtain ⟨context, suspend⟩ := h.suspend
  have uncancelled : c.isCancelled (r.token id) = false := by
    rw [← Bool.not_eq_true]
    intro cancelled
    have now := later.isCancelled cancelled
    rw [← hl.token_eq, h.uncancelled] at now
    cases now
  obtain ⟨p, active⟩ :=
    Run.outcome?_eq_none.1 (hl.unresolved (Run.outcome?_eq_none.2 ⟨q, h.active⟩))
  exact ⟨p, run, active, ⟨context, hl.purpose ▸ suspend⟩, uncancelled⟩

/-- A late registration is given the context of the live attempt. -/
theorem Coherent.purpose_of_live (h : c.Coherent) (live : c.Live id r p) :
    r.purpose = .suspend c.attempt.context := by
  obtain ⟨s, run, purpose, -⟩ := h.attempt (h.live live).1
  rw [live.run] at run
  cases run
  exact purpose

end Quiesce.Controller
