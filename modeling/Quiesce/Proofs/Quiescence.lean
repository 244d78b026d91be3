import Quiesce.Proofs.Calls
import Quiesce.Proofs.Resolution
import Quiesce.Proofs.StateWrites
/-!
# After a successful suspend

When an attempt has succeeded, every resume run is from before the attempt: the attempt superseded
them all, so until the next resume is asked for the server stays suspended. This does not stop the
calls of such a run. Its token is its own and nobody cancels it, and it looks at the generation only
when it is through with all groups. So a resume run that is still under way goes on to resume group
after group of a suspended server (`resumes_while_suspended`); `quiescent_after_suspend` says that
no other resume call is made.
-/

namespace Quiesce.Controller

variable {c d c₀ : Controller} {x : Action} {history later : List Action} {id i j : Nat}
  {r s : Run} {p : PhaseRun} {stage : RunStage} {k : Call} {context : ResumeContext}

def ResumesSuperseded (c : Controller) : Prop :=
  ∀ (j : Nat) (s : Run) (context : ResumeContext), c.runs[j]? = some s →
    s.purpose = .resume context → s.generation < c.attempt.generation

/-- While an attempt is live every resume run is superseded: one of the current generation would
have cancelled the attempt. -/
theorem Coherent.resumesSuperseded (h : c.Coherent) (live : c.Live id r p) :
    c.ResumesSuperseded := by
  intro j s context run resume
  refine Nat.lt_of_le_of_ne (h.generation_le run) fun current => ?_
  exact h.not_live_of_resume run resume current.symm live

theorem Move.resumesSuperseded (move : c.Move id r p x stage d) (h : c.Coherent)
    (live : c.Live id r p) : d.ResumesSuperseded := by
  intro j s context run resume
  rw [move.attempt]
  rcases run_of_setStage live.run move.runs run with ⟨rfl, rfl⟩ | ⟨-, run⟩
  · obtain ⟨context', suspend⟩ := live.suspend
    have purpose : r.purpose = .resume context := resume
    rw [suspend] at purpose
    cases purpose
  · exact h.resumesSuperseded live j s context run resume

/-- Unless a resume is asked for, the resume runs are those that there were. -/
theorem resume_run_of_after (unresumed : ∀ context, Action.resume context ∉ later)
    (run : (c.after later).runs[j]? = some s) (resume : s.purpose = .resume context) :
    ∃ t, c.runs[j]? = some t ∧ t.Later s := by
  induction later using List.reverseRecOn generalizing s with
  | nil => exact ⟨s, run, .refl s⟩
  | append_singleton h x ih =>
    rw [after_concat] at run
    have hs := step_spec (c.after h) x
    by_cases hlt : j < (c.after h).runs.length
    · obtain ⟨t, run', hts⟩ := hs.later.run_of_lt run hlt
      obtain ⟨u, hu, hut⟩ := ih (fun context hx => unresumed context (by simp [hx])) run'
        (hts.purpose ▸ resume)
      exact ⟨u, hu, hut.trans hts⟩
    · obtain ⟨-, starts⟩ := hs.newRun run (Nat.le_of_not_lt hlt)
      cases starts with
      | suspend context' running => cases resume
      | resume context' notRunning => exact absurd (by simp) (unresumed context')

theorem ResumesSuperseded.after (h : c.ResumesSuperseded)
    (unresumed : ∀ context, Action.resume context ∉ later) : (c.after later).ResumesSuperseded := by
  intro j s context run resume
  obtain ⟨t, run', hl⟩ := resume_run_of_after unresumed run resume
  rw [hl.generation]
  exact Nat.lt_of_lt_of_le (h j t context run' (hl.purpose ▸ resume))
    (later_after c later).generation_le

theorem ResumesSuperseded.suspended (h : (c₀.after history).ResumesSuperseded) (new : c₀.New)
    (suspended : (c₀.after history).state = .suspended)
    (unresumed : ∀ context, Action.resume context ∉ later) :
    (c₀.after (history ++ later)).state = .suspended := by
  induction later using List.reverseRecOn with
  | nil => rwa [List.append_nil]
  | append_singleton before x ih =>
    have unresumed' : ∀ context, Action.resume context ∉ before :=
      fun context hx => unresumed context (by simp [hx])
    rw [← List.append_assoc, after_concat]
    rcases (step_spec (c₀.after (history ++ before)) x).leaves_suspended (coherent_after new _)
        (ih unresumed') with same | ⟨j, s, context, run, resume, current, -⟩
    · exact same
    · have := h.after unresumed' j s context (after_append c₀ history before ▸ run) resume
      rw [after_append] at current
      omega

theorem Makes.resume_run (made : c.Makes x k) (h : c.Coherent)
    (resumes : k.request.phase = .resume) :
    ∃ j q s context, k.origin = .run j q ∧ c.runs[j]? = some s ∧ s.purpose = .resume context ∧
      s.outcome? = none := by
  cases made with
  | member j q k reaches origin member =>
    obtain ⟨s, rest, run, active, -⟩ := reaches
    cases request : k.request with
    | resume context =>
      have resume : s.purpose = .resume context := h.purpose_eq run active request
      exact ⟨j, q, s, context, origin, run, resume, Run.outcome?_eq_none.2 ⟨_, active⟩⟩
    | prepare context | suspend context => rw [request] at resumes; cases resumes
  | late a level p valid untracked notRunning => cases resumes

/-- **After a successful suspend only old resume runs go on.** Until the next resume is asked for,
the server stays suspended, and whoever is called to resume is called by a resume run that was
started before the attempt and had no outcome when the attempt succeeded. -/
theorem quiescent_after_suspend (config : Config) (listeners : List Listener)
    (history : List Action) (x : Action) (id : Nat) (r : Run) (context : SuspendContext)
    (run : ((create config listeners).after history).runs[id]? = some r)
    (suspend : r.purpose = .suspend context)
    (success : ((create config listeners).after history).Resolves x id .ok)
    (later : List Action) (unresumed : ∀ context, Action.resume context ∉ later) :
    let d := ((create config listeners).after history).step x
    (d.after later).state = .suspended ∧
    ∀ i k, (d.after later).calls[i]? = some k → d.calls.length ≤ i → k.request.phase = .resume →
      ∃ j q s context', k.origin = .run j q ∧ j < id ∧ d.runs[j]? = some s ∧
        s.purpose = .resume context' ∧ s.generation < r.generation ∧ s.outcome? = none := by
  intro d
  have new : (create config listeners).New := new_create config listeners
  have coherent := coherent_after new history
  obtain ⟨p, active, move⟩ := success.move_of_run run
  obtain ⟨-, rfl, live, hd⟩ := move.suspended_of_ok coherent run active suspend
  have hd' : d = (create config listeners).after (history ++ [x]) := (after_concat _ _ _).symm
  have current : d.attempt.generation = r.generation :=
    (congrArg Attempt.generation move.attempt).trans (coherent.live live).2.1.symm
  have superseded : d.ResumesSuperseded := move.resumesSuperseded coherent live
  constructor
  · have suspended : d.state = .suspended := congrArg Controller.state hd
    rw [hd'] at superseded suspended ⊢
    rw [← after_append]
    exact superseded.suspended new suspended unresumed
  · intro i k hk isNew resumes
    obtain ⟨before, y, rest, l, rfl, made, -, hl⟩ := call_made hk isNew
    have coherent' : (d.after before).Coherent := by
      rw [hd', ← after_append]
      exact coherent_after new _
    obtain ⟨j, q, t, context', origin, started, resume, unresolved⟩ :=
      made.resume_run coherent' (hl.request ▸ resumes)
    obtain ⟨s, hs, hst⟩ :=
      resume_run_of_after (fun context' hx => unresumed context' (by simp [hx])) started resume
    have purpose : s.purpose = .resume context' := hst.purpose ▸ resume
    have old : s.generation < r.generation := current ▸ superseded j s context' hs purpose
    refine ⟨j, q, s, context', hl.origin.trans origin, ?_, hs, purpose, old,
      hst.unresolved unresolved⟩
    -- The run is older than the attempt, since its generation is less.
    obtain ⟨u, hu, hru⟩ := (step_spec _ x).later.runs run
    rw [hd'] at hs
    rw [← after_concat] at hu
    rw [← hru.generation] at old
    exact lt_of_generation_lt new hs hu old

/-! ## A resume run that is overtaken -/

/-- Run `id` calls the only member of a group, waits for the call and leaves the group behind. -/
def visit (id call : Nat) : List Action :=
  [.turn id, .finish call .returned, .collect id call, .turn id]

/-- Of two resume runs the second one succeeds while the first one still waits for `a`, in its first
group. Then everyone is suspended, up to the last move of the attempt. -/
def overtaken : List Action :=
  let past := List.replicate 8
  [.register ⟨"a", "a"⟩ 9, .register ⟨"b", "b"⟩ 0, .resume {}, .turn 0, .resume {}] ++
    visit 1 3 ++ past (.turn 1) ++ visit 1 4 ++ [.turn 1, .suspend {}] ++
    visit 2 5 ++ past (.turn 2) ++ visit 2 6 ++ [.turn 2] ++
    visit 2 7 ++ past (.turn 2) ++ visit 2 8

/-- The call to `a` returns, and the first resume run goes on to `b`, in its last group. -/
def overtakenGoesOn : List Action :=
  [.finish 2 .returned, .collect 0 2] ++ List.replicate 10 (.turn 0)

theorem quiescent_after_suspend_overtaken :
    let d := ((create {} []).after overtaken).step (.turn 2)
    ∃ j q s context, j < 2 ∧ d.runs[j]? = some s ∧ s.purpose = .resume context ∧
      s.outcome? = none ∧
      (d.after overtakenGoesOn).calls[9]? =
        some ⟨⟨"b", "b"⟩, .resume {}, .child (.child (.run 0) 9) 9, .run j q, none⟩ := by
  intro d
  have run : ((create {} []).after overtaken).runs[2]? =
      some ⟨.suspend {}, 1, .active ⟨.suspend {}, [], none⟩⟩ := by decide +kernel
  have success : ((create {} []).after overtaken).Resolves (.turn 2) 2 .ok :=
    ⟨by decide +kernel, by decide +kernel⟩
  have unresumed : ∀ context, Action.resume context ∉ overtakenGoesOn := by
    simp [overtakenGoesOn]
  have call : (d.after overtakenGoesOn).calls[9]? =
      some ⟨⟨"b", "b"⟩, .resume {}, .child (.child (.run 0) 9) 9, .run 0 .first, none⟩ := by
    decide +kernel
  have isNew : d.calls.length ≤ 9 := by decide +kernel
  obtain ⟨-, only⟩ :=
    quiescent_after_suspend {} [] overtaken (.turn 2) 2 _ {} run rfl success _ unresumed
  obtain ⟨j, q, s, context, origin, older, started, resume, -, unresolved⟩ := only 9 _ call isNew rfl
  exact ⟨j, q, s, context, older, started, resume, unresolved, origin ▸ call⟩

/-- A resume call is made while the server is suspended, though nobody asked for a resume since. -/
theorem resumes_while_suspended :
    let d := ((create {} []).after overtaken).step (.turn 2)
    ((create {} []).after overtaken).Resolves (.turn 2) 2 .ok ∧
      (∀ context, Action.resume context ∉ overtakenGoesOn) ∧
      (d.after overtakenGoesOn).state = .suspended ∧
      ∃ i k, d.calls.length ≤ i ∧ (d.after overtakenGoesOn).calls[i]? = some k ∧
        k.request.phase = .resume := by
  intro d
  have call : (d.after overtakenGoesOn).calls[9]? =
      some ⟨⟨"b", "b"⟩, .resume {}, .child (.child (.run 0) 9) 9, .run 0 .first, none⟩ := by
    decide +kernel
  exact ⟨⟨by decide +kernel, by decide +kernel⟩, by simp [overtakenGoesOn], by decide +kernel,
    9, _, by decide +kernel, call, rfl⟩

end Quiesce.Controller
