import Quiesce.Error
/-!
# Waiting with a limit

A waiter receives the outcome of a run, or gives up after a while. Giving up is the waiter's own
affair: the run goes on (`with_timeout` of a `Completion`).
-/

namespace Quiesce

/-- Someone who waits for an outcome. Instants are counted in nanoseconds. -/
structure Waiter where
  /-- When the wait began. -/
  since : Nat
  /-- How long to wait at most. -/
  limit? : Option Duration := none
deriving DecidableEq, Repr

namespace Waiter

def deadline? (w : Waiter) : Option Nat :=
  w.limit?.map fun limit => w.since + limit.nanoseconds

/-- What the waiter receives at an instant, given the outcome if there is one. As with tokio's
`timeout`, the outcome is looked at first: one that is there wins over a limit that has passed. -/
def poll (w : Waiter) (now : Nat) (outcome? : Option Outcome) : Option Outcome :=
  match outcome?, w.limit? with
  | some o, _ => some o
  | none, some limit =>
    if w.since + limit.nanoseconds ≤ now then some (.error (.timeout limit)) else none
  | none, none => none

theorem poll_some (w : Waiter) (now : Nat) (o : Outcome) : w.poll now (some o) = some o := by
  simp [poll]

/-- Without an outcome a waiter gives up exactly from its deadline on. -/
theorem poll_none_isSome_iff {w : Waiter} {now : Nat} :
    (w.poll now none).isSome ↔ ∃ deadline, w.deadline? = some deadline ∧ deadline ≤ now := by
  cases h : w.limit? with
  | none => simp [poll, deadline?, h]
  | some limit => simp [poll, deadline?, h]

end Waiter

end Quiesce
