import Quiesce.Controller
/-!
# How runs move on

A suspend run prepares all groups, then suspends them; a resume run resumes them in the opposite
order. At its *turn* a run makes its next move; in between it *collects* the ends of the calls it
waits for. A run whose token is cancelled stops at its next turn and collects nothing more.

| here | there |
| --- | --- |
| `turn?` | a pass through the loop of `run_phase` |
| `launch`, `collect?` | `run_group`, before it waits and when one of its calls has ended |
| `fail` | `phase_failed`, with the cancellation of the group in `run_group` |
| `completePhase` | what follows a phase in `drive_suspend` and `drive_resume` |
| `mayAdvance` | the checks of `advance` |
-/

namespace Quiesce.Controller

/-! ## Ending a run -/

def setStage (c : Controller) (id : Nat) (s : RunStage) : Controller :=
  { c with runs := c.runs.modify id fun r => { r with stage := s } }

section
variable (c : Controller) (id : Nat) (s : RunStage)

@[simp] theorem setStage_state : (c.setStage id s).state = c.state := rfl
@[simp] theorem setStage_registry : (c.setStage id s).registry = c.registry := rfl
@[simp] theorem setStage_attempt : (c.setStage id s).attempt = c.attempt := rfl
@[simp] theorem setStage_calls : (c.setStage id s).calls = c.calls := rfl
@[simp] theorem setStage_cancelled : (c.setStage id s).cancelled = c.cancelled := rfl
@[simp] theorem setStage_hub : (c.setStage id s).hub = c.hub := rfl

@[simp] theorem length_runs_setStage : (c.setStage id s).runs.length = c.runs.length := by
  simp [setStage]

theorem runs_setStage (j : Nat) :
    (c.setStage id s).runs[j]? =
      if j = id then c.runs[j]?.map fun r => { r with stage := s } else c.runs[j]? := by
  by_cases h : j = id
  · subst h; simp [setStage]
  · simp [setStage, h, Ne.symm h]

end

def resolve (c : Controller) (id : Nat) (o : Outcome) : Controller :=
  c.setStage id (.resolved o)

/-- A member's failure ends the run: its group is advised to give up, and the failure is reported
once as an event and once as the outcome. -/
def fail (c : Controller) (id : Nat) (phase : Phase) (group : Token) (f : Failure) : Controller :=
  let c := (c.cancelToken group).resolve id (.error (.ofPhase phase f.error))
  c.emit (.phaseFailed phase f)

/-- A suspend run may move the state on from `state`: its attempt is the current one, its token is
not cancelled, and the state is where the run believes it to be. -/
def mayAdvance (c : Controller) (id : Nat) (r : Run) (state : State) : Bool :=
  c.attempt.generation = r.generation && !c.isCancelled (r.token id) && c.state = state

theorem mayAdvance_iff {c : Controller} {id : Nat} {r : Run} {state : State} :
    c.mayAdvance id r state = true ↔ c.attempt.generation = r.generation ∧
      c.isCancelled (r.token id) = false ∧ c.state = state := by
  simp [mayAdvance, and_assoc]

/-- What follows a phase that went through: the next phase of a suspend, or success. A run that was
superseded meanwhile changes nothing and is canceled. -/
def completePhase (c : Controller) (id : Nat) (r : Run) : Request → Controller
  | .prepare context =>
    if c.mayAdvance id r .preSuspend then
      { c with state := .suspending }.setStage id (.active (.start (.suspend context)))
    else c.resolve id (.error .canceled)
  | .suspend _ =>
    if c.mayAdvance id r .suspending then
      ({ c with state := .suspended }.resolve id .ok).emit .suspendComplete
    else c.resolve id (.error .canceled)
  | .resume _ =>
    if c.attempt.generation = r.generation then
      ({ c with state := .running }.resolve id .ok).emit .resumeComplete
    else c.resolve id (.error .canceled)

/-! ## Calling a group -/

/-- Calls every member of a group. Each call gets a token of its own under the group's token, and
the group's token comes under the run's. -/
def launch (c : Controller) (id : Nat) (r : Run) (p : PhaseRun) (priority : Priority)
    (members : List Activity) (rest : List Priority) : Controller :=
  let base := c.calls.length
  let group := Token.child (r.token id) base
  let made := (members.zipIdx base).map fun (a, k) =>
    Call.mk a p.request (.child group k) (.run id priority) none
  let pending := List.range' base members.length
  let c := { c with calls := c.calls ++ made }
  c.setStage id (.active (p.await ⟨priority, group, pending⟩ rest))

theorem call_of_launch {c : Controller} {id : Nat} {r : Run} {p : PhaseRun} {priority : Priority}
    {members : List Activity} {rest : List Priority} {i : Nat} {k : Call}
    (h : (c.launch id r p priority members rest).calls[i]? = some k) :
    c.calls[i]? = some k ∨ i ∈ List.range' c.calls.length members.length ∧
      k.origin = .run id priority ∧ k.request = p.request ∧ k.activity ∈ members := by
  simp only [launch, setStage_calls, List.getElem?_append] at h
  by_cases old : i < c.calls.length
  · rw [if_pos old] at h
    exact .inl h
  · rw [if_neg old] at h
    simp only [List.getElem?_map, Option.map_eq_some_iff] at h
    obtain ⟨⟨a, j⟩, ha, rfl⟩ := h
    rw [List.getElem?_zipIdx, Option.map_eq_some_iff] at ha
    obtain ⟨b, hb, heq⟩ := ha
    cases heq
    have hlt := (List.getElem?_eq_some_iff.1 hb).1
    refine .inr ⟨?_, rfl, rfl, List.mem_of_getElem? hb⟩
    rw [List.mem_range'_1]
    omega

/-! ## The steps -/

/-- The phase that an unresolved run is in, with the run. -/
def activeRun? (c : Controller) (id : Nat) : Option (Run × PhaseRun) := do
  let r ← c.runs[id]?
  let p ← r.phase?
  return (r, p)

theorem activeRun?_eq_some {c : Controller} {id : Nat} {r : Run} {p : PhaseRun} :
    c.activeRun? id = some (r, p) ↔ c.runs[id]? = some r ∧ r.stage = .active p := by
  unfold activeRun?
  cases h : c.runs[id]? with
  | none => simp
  | some r' =>
    cases hs : r'.stage with
    | active p' => simp [Run.phase?, hs]; grind
    | resolved o => simp [Run.phase?, hs]; grind

/-- One move of a run; nothing if it is resolved or has to wait. -/
def turn? (c : Controller) (id : Nat) : Option Controller := do
  let (r, p) ← c.activeRun? id
  match p.next (c.isCancelled (r.token id)) c.registry.members with
  | .blocked => none
  | .canceled => some (c.resolve id (.error .canceled))
  | .completed => some (c.completePhase id r p.request)
  | .pass p => some (c.setStage id (.active p))
  | .launch priority members rest => some (c.launch id r p priority members rest)

/-- A run takes note of the end of a call it waits for; nothing if there is no such end to note. -/
def collect? (c : Controller) (id call : Nat) : Option Controller := do
  let (r, p) ← c.activeRun? id
  let b ← p.barrier?
  if c.isCancelled (r.token id) || !b.pending.contains call then none
  else
    let made ← c.calls[call]?
    let ending ← made.ending?
    match ending.error? with
    | none => some (c.setStage id (.active (p.succeed call)))
    | some e => some (c.fail id p.request.phase b.token ⟨made.activity.name, b.priority, e⟩)

def finish (c : Controller) (call : Nat) (e : Ending) : Controller :=
  { c with calls := c.calls.modify call fun k => k.finish e }

end Quiesce.Controller
