import Quiesce.Proofs.Calls
import Quiesce.Proofs.Reports
import Quiesce.Proofs.Resolution
import Quiesce.Proofs.StateWrites
/-!
# Superseded runs

A run that is under way at an opening of an attempt or at a reset can no longer succeed, and never
writes the state. An attempt's token is cancelled at that moment, so the attempt is canceled
whatever its calls come to. A resume run has a token of its own, which nobody cancels, and it looks
at the generation only when it is through with all groups. So a superseded resume run still notes
that a call it waits for has failed, and reports this failure instead of being canceled
(`superseded_resume_fails`); `superseded_run_outcome` says that this is the only exception.
-/

namespace Quiesce.Controller

variable {c d c₀ : Controller} {x : Action} {history : List Action} {id : Nat} {r : Run}
  {p : PhaseRun} {o : Outcome} {e : ActivityError}

def CallFailed (c : Controller) (id : Nat) (e : ActivityError) : Prop :=
  ∃ (i : Nat) (k : Call) (q : Priority) (ending : Ending), c.calls[i]? = some k ∧
    k.origin = .run id q ∧ k.ending? = some ending ∧ ending.error? = some e

theorem CallFailed.later (failed : c.CallFailed id e) (grow : c.Later d) : d.CallFailed id e := by
  obtain ⟨i, k, q, ending, made, origin, ended, error⟩ := failed
  obtain ⟨l, made', hl⟩ := grow.calls made
  exact ⟨i, l, q, ending, made', hl.origin.trans origin, hl.ending _ ended, error⟩

theorem Superseded.append (superseded : c₀.Superseded history id) (later : List Action) :
    c₀.Superseded (history ++ later) id := by
  obtain ⟨earlier, x, rest, rfl, known, supersedes⟩ := superseded
  exact ⟨earlier, x, rest ++ later, by simp, known, supersedes⟩

/-! ## The last move of a superseded run -/

theorem Coherent.not_live_of_past (h : c.Coherent) (past : r.generation < c.attempt.generation) :
    ¬ c.Live id r p := by
  intro live
  have current := (h.live live).2.1
  omega

/-- A run of a past generation ends as canceled, or it is a resume run and a call that it waits for
has failed. -/
theorem Move.outcome_of_past (move : c.Move id r p x (.resolved o) d) (h : c.Coherent)
    (run : c.runs[id]? = some r) (active : r.stage = .active p)
    (past : r.generation < c.attempt.generation) :
    o = .error .canceled ∨ ∃ context e b i k ending, r.purpose = .resume context ∧
      o = .error (.resumeFailed e) ∧ p.barrier? = some b ∧ i ∈ b.pending ∧ c.calls[i]? = some k ∧
      k.ending? = some ending ∧ ending.error? = some e := by
  cases move with
  | gaveUp why => exact .inl rfl
  | suspended context barrier ahead request may =>
    have current := (mayAdvance_iff.1 may).1
    omega
  | resumed context barrier ahead request current => omega
  | failed call b k ending e uncancelled barrier pending made ended error =>
    cases purpose : r.purpose with
    | suspend context =>
      exact absurd ⟨run, active, ⟨context, purpose⟩, uncancelled⟩ (h.not_live_of_past past)
    | resume context =>
      have asks := h.asks run active
      have phase : p.request.phase = .resume := by
        cases request : p.request with
        | resume context' => rfl
        | prepare context' | suspend context' => rw [purpose, request] at asks; cases asks
      exact .inr ⟨context, e, b, call, k, ending, rfl, by rw [phase]; rfl, barrier, pending, made,
        ended, error⟩

theorem Resolves.outcome_of_superseded (resolves : (c₀.after history).Resolves x id o)
    (new : c₀.New) (superseded : c₀.Superseded history id)
    (run : (c₀.after history).runs[id]? = some r) :
    o = .error .canceled ∨ ∃ context e, r.purpose = .resume context ∧
      o = .error (.resumeFailed e) ∧ (c₀.after history).CallFailed id e := by
  obtain ⟨p, active, move⟩ := resolves.move_of_run run
  have past := (superseded_iff new run).1 superseded
  refine (move.outcome_of_past (coherent_after new history) run active past).imp_right ?_
  rintro ⟨context, e, b, i, k, ending, purpose, failed, barrier, pending, made, ended, error⟩
  obtain ⟨l, made', origin, -⟩ := awaited new run active barrier pending
  rw [made] at made'
  cases made'
  exact ⟨context, e, purpose, failed, i, k, b.priority, ending, made, origin, ended, error⟩

/-! ## From the superseding on -/

theorem outcome_of_superseded (new : c₀.New) (superseded : c₀.Superseded history id)
    (run : (c₀.after history).runs[id]? = some r) (unresolved : r.outcome? = none)
    {later : List Action} (resolved : ((c₀.after history).after later).outcome? (.run id) = some o) :
    o = .error .canceled ∨ ∃ context e, r.purpose = .resume context ∧
      o = .error (.resumeFailed e) ∧ ((c₀.after history).after later).CallFailed id e := by
  obtain ⟨before, x, rest, rfl, resolves⟩ :=
    resolved_in ((outcome?_run run).trans unresolved) resolved
  obtain ⟨s, run', hl⟩ := (later_after (c₀.after history) before).runs run
  have rest' := later_after ((c₀.after history).after before) (x :: rest)
  rw [← after_append] at resolves run' rest'
  rw [after_append (c₀.after history), ← after_append c₀]
  rw [← hl.purpose]
  exact (resolves.outcome_of_superseded new (superseded.append before) run').imp_right
    fun ⟨context, e, purpose, failed, call⟩ => ⟨context, e, purpose, failed, call.later rest'⟩

/-- **A superseded run is canceled, unless it is a resume run whose call fails.** Take a run that
was superseded while it was under way, and whatever comes later. Its steps leave the state alone.
Either they tell of nothing and the run can only end as canceled; or it is a resume run, one of its
calls has failed, and the run has failed with the error of this call and told of that alone. -/
theorem superseded_run_outcome (config : Config) (listeners : List Listener)
    (history : List Action) (id : Nat) (r : Run)
    (run : ((create config listeners).after history).runs[id]? = some r)
    (unresolved : r.outcome? = none)
    (superseded : (create config listeners).Superseded history id) (later : List Action) :
    let c := (create config listeners).after history
    let d := c.after later
    (∀ x, x.run? = some id → (d.step x).state = d.state) ∧
    (c.reports id later = [] ∧ (∀ o, d.outcome? (.run id) = some o → o = .error .canceled) ∨
      ∃ context e, r.purpose = .resume context ∧
        d.outcome? (.run id) = some (.error (.resumeFailed e)) ∧
        c.reports id later = [.resumeFailed] ∧ d.CallFailed id e) := by
  intro c d
  have new : (create config listeners).New := new_create config listeners
  have split : d = (create config listeners).after (history ++ later) :=
    (after_append _ history later).symm
  obtain ⟨s, run', hl⟩ := (later_after c later).runs run
  have reports : c.reports id later = s.report?.toList := by
    rw [reports_since new run unresolved, ← split, run', Option.bind_some]
  refine ⟨fun x own => ?_, ?_⟩
  · rw [split]
    exact state_of_superseded new (step_spec _ x) (superseded.append later) own
  · rw [reports, outcome?_run run']
    cases stage : s.stage with
    | active p =>
      exact .inl ⟨by rw [Run.report?_of_active stage]; rfl, by simp [Run.outcome?, stage]⟩
    | resolved o =>
      have resolved : d.outcome? (.run id) = some o := outcome?_run_eq_some.2 ⟨s, run', stage⟩
      rcases outcome_of_superseded new superseded run unresolved resolved with
        rfl | ⟨context, e, purpose, rfl, failed⟩
      · refine .inl ⟨?_, by simp [Run.outcome?, stage]⟩
        cases purpose : s.purpose <;> simp [Run.report?, purpose, stage]
      · refine .inr ⟨context, e, purpose, by simp [Run.outcome?, stage], ?_, failed⟩
        simp [Run.report?, hl.purpose, purpose, stage]

/-- A reset while an attempt waits for a call: the failure of the call is not reported. -/
theorem superseded_run_outcome_reset :
    let c₀ := create { requestedState := .running } []
    let history : List Action := [.register ⟨"a", "a"⟩ 0, .suspend {}, .turn 0, .reset]
    let later : List Action := [.finish 0 (.failed (.fail "no")), .collect 0 0, .turn 0]
    let c := c₀.after history
    c.outcome? (.run 0) = none ∧ c₀.Superseded history 0 ∧
      (c.after later).outcome? (.run 0) = some (.error .canceled) ∧ c.reports 0 later = [] := by
  intro c₀ history later c
  have run : c.runs[0]? = some ⟨.suspend {}, 1, .active ⟨.prepare {}, Priority.all.tail,
    some ⟨.first, .child (.attempt 1) 0, [0]⟩⟩⟩ := by decide
  have superseded : c₀.Superseded history 0 :=
    ⟨[.register ⟨"a", "a"⟩ 0, .suspend {}, .turn 0], .reset, [], rfl, by decide, rfl⟩
  have canceled : (c.after later).outcome? (.run 0) = some (.error .canceled) := by decide
  refine ⟨by decide, superseded, canceled, ?_⟩
  rcases (superseded_run_outcome _ _ history 0 _ run rfl superseded later).2 with
    ⟨silent, -⟩ | ⟨context, e, resume, -⟩
  · exact silent
  · cases resume

/-- A reset while a resume run waits for a call: the run fails with the call, and reports it. -/
theorem superseded_resume_fails :
    let c₀ := create {} []
    let history : List Action := [.register ⟨"a", "a"⟩ 0, .finish 0 .returned, .resume {}] ++
      List.replicate 10 (.turn 0) ++ [.reset]
    let later : List Action := [.finish 1 (.failed (.fail "no")), .collect 0 1]
    let c := c₀.after history
    c.outcome? (.run 0) = none ∧ c₀.Superseded history 0 ∧
      (c.after later).outcome? (.run 0) = some (.error (.resumeFailed (.fail "no"))) ∧
      c.reports 0 later = [.resumeFailed] := by
  intro c₀ history later c
  have superseded : c₀.Superseded history 0 :=
    ⟨[.register ⟨"a", "a"⟩ 0, .finish 0 .returned, .resume {}] ++ List.replicate 10 (.turn 0),
      .reset, [], rfl, by decide, rfl⟩
  exact ⟨by decide, superseded, by decide, by decide⟩

end Quiesce.Controller
