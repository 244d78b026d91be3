import Quiesce.PhaseRun
/-!
# Runs, completions and attempts

A *run* carries out one suspend or one resume. A *completion* is a handle on the outcome of a run.
An *attempt* is the latest suspend, or the quiet start that stands for one. The types `Completion`,
`ActiveSuspend` and `Attempt`; a run is the future that a completion shares among its waiters.
-/

namespace Quiesce

inductive Purpose
  | suspend (context : SuspendContext)
  | resume (context : ResumeContext)
deriving DecidableEq, Repr

/-- What a run asks first. -/
def Purpose.opening : Purpose → Request
  | suspend c => .prepare c
  | resume c => .resume c

/-- Whether a run is under way or has its outcome. -/
inductive RunStage
  | active (phase : PhaseRun)
  | resolved (outcome : Outcome)
deriving DecidableEq, Repr

/-- One suspend or resume in progress, or finished. -/
structure Run where
  purpose : Purpose
  /-- The generation of attempts that the run belongs to. -/
  generation : Nat
  stage : RunStage
deriving DecidableEq, Repr

namespace Run

def start (purpose : Purpose) (generation : Nat) : Run :=
  ⟨purpose, generation, .active (.start purpose.opening)⟩

def phase? (r : Run) : Option PhaseRun :=
  match r.stage with
  | .active p => some p
  | .resolved _ => none

def outcome? (r : Run) : Option Outcome :=
  match r.stage with
  | .active _ => none
  | .resolved o => some o

/-- The token of a run: a suspend run has its attempt's, a resume run has one of its own. -/
def token (r : Run) (id : Nat) : Token :=
  match r.purpose with
  | .suspend _ => .attempt r.generation
  | .resume _ => .run id

theorem outcome?_eq_some {r : Run} {o : Outcome} : r.outcome? = some o ↔ r.stage = .resolved o := by
  cases h : r.stage <;> simp [outcome?, h]

theorem outcome?_eq_none {r : Run} : r.outcome? = none ↔ ∃ p, r.stage = .active p := by
  cases h : r.stage <;> simp [outcome?, h]

end Run

/-- A handle on an outcome. -/
inductive Completion
  /-- Successful from the start. -/
  | ready
  /-- The outcome of a run. -/
  | run (id : Nat)
deriving DecidableEq, Repr

/-- The current suspend attempt, or the latest one. -/
structure Attempt where
  /-- Grows with every attempt and every reset. -/
  generation : Nat
  completion : Completion
  /-- The context that a late registration passes on. -/
  context : SuspendContext
deriving DecidableEq, Repr

/-- The attempt that stands in before the first one and after a reset: finished and successful. -/
def Attempt.initial (generation : Nat) : Attempt :=
  ⟨generation, .ready, .boot⟩

end Quiesce
