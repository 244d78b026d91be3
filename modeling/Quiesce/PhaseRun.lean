import Quiesce.Call
/-!
# Phase runs

One phase, applied to the groups in order. On reaching a group the run takes its members as they
are at that moment, calls them all, and waits at the group's *barrier* until every call has
succeeded. The first failed call ends the run. A cancelled run starts no further group. This is
`run_phase` with `run_group`, cut where they wait. Of a cancelled token and an ended call they look
at the token first (a biased selection), and so does `next`.
-/

namespace Quiesce

/-- The order in which a phase visits the groups. -/
def Phase.order : Phase → List Priority
  | prepare | suspend => Priority.all
  | resume => Priority.all.reverse

theorem Phase.mem_order (phase : Phase) (q : Priority) : q ∈ phase.order := by
  cases phase <;> simp [order, Priority.mem_all]

/-- The group a phase run is waiting at. -/
structure Barrier where
  priority : Priority
  /-- The token that the members' tokens derive from. -/
  token : Token
  /-- The calls not yet seen to succeed. -/
  pending : List Nat
deriving DecidableEq, Repr

/-- How far one phase has got. -/
structure PhaseRun where
  /-- What every member is asked. -/
  request : Request
  /-- The groups not yet reached. -/
  ahead : List Priority
  barrier? : Option Barrier
deriving DecidableEq, Repr

/-- What a phase run does at its turn. -/
inductive PhaseMove
  /-- It waits at its barrier. -/
  | blocked
  /-- It stops, because it was cancelled. -/
  | canceled
  /-- It is through with all groups. -/
  | completed
  /-- It goes on without a call: past a passed barrier or an empty group. -/
  | pass (p : PhaseRun)
  /-- It calls the members of the next group; the groups after it are left. -/
  | launch (priority : Priority) (members : List Activity) (rest : List Priority)
deriving DecidableEq, Repr

namespace PhaseRun

def start (request : Request) : PhaseRun :=
  ⟨request, request.phase.order, none⟩

/-- The next move, given whether the run is cancelled and who the members of a group are now. -/
def next (p : PhaseRun) (cancelled : Bool) (members : Priority → List Activity) : PhaseMove :=
  match p.barrier?, p.ahead with
  | some b, _ =>
    if cancelled then .canceled
    else if b.pending = [] then .pass { p with barrier? := none }
    else .blocked
  | none, [] => .completed
  | none, q :: rest =>
    if cancelled then .canceled
    else
      match members q with
      | [] => .pass { p with ahead := rest }
      | a :: as => .launch q (a :: as) rest

/-- The phase after a launch: it waits for the given calls. -/
def await (p : PhaseRun) (b : Barrier) (rest : List Priority) : PhaseRun :=
  { p with ahead := rest, barrier? := some b }

/-- The phase after one of the awaited calls was seen to succeed. -/
def succeed (p : PhaseRun) (call : Nat) : PhaseRun :=
  { p with barrier? := p.barrier?.map fun b => { b with pending := b.pending.erase call } }

end PhaseRun

end Quiesce
