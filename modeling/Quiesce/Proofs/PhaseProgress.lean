import Quiesce.Proofs.Resolution
import Quiesce.Proofs.Snapshots
/-!
# How a phase goes on

A phase is *working* until it returns (`Returns`): it has called some groups, all of whose calls
have returned, and it may wait at the last group that it has reached, for calls to the members of
this one (`Working`). An action that takes part in a phase whose token is not cancelled keeps this
up or makes the phase return (`Working.step`), and a phase that has returned is over (`Over`): it
reaches no further group and does not return again.
-/

namespace Quiesce

inductive PhaseResult
  /-- All groups have passed. -/
  | ok
  | canceled
  | failed (f : Failure)
deriving DecidableEq, Repr

/-- A group that is reached, with the number of the first call to its members. -/
structure Launch where
  first : Nat
  group : Group
deriving DecidableEq, Repr

/-- The calls to the members of the group, in the order of the members. -/
def Launch.calls (l : Launch) : List Nat :=
  List.range' l.first l.group.members.length

theorem Launch.mem_calls {l : Launch} {i : Nat} :
    i ∈ l.calls ↔ ∃ j < l.group.members.length, i = l.first + j := by
  simp only [calls, List.mem_range', Nat.one_mul]

/-- A phase run is through when it is past its last barrier. -/
theorem PhaseRun.next_eq_completed {p : PhaseRun} {cancelled : Bool}
    {members : Priority → List Activity} :
    p.next cancelled members = .completed ↔ p.barrier? = none ∧ p.ahead = [] := by
  unfold next
  cases p.barrier? with
  | some b =>
    cases cancelled with
    | true => simp
    | false => by_cases done : b.pending = [] <;> simp [done]
  | none =>
    cases p.ahead with
    | nil => simp
    | cons q rest =>
      cases cancelled with
      | true => simp
      | false => cases h : members q <;> simp [h]

theorem PhaseRun.cancelled_of_next {p : PhaseRun} {cancelled : Bool}
    {members : Priority → List Activity} (h : p.next cancelled members = .canceled) :
    cancelled = true := by
  cases cancelled with
  | true => rfl
  | false =>
    unfold next at h
    cases barrier : p.barrier? with
    | some b => by_cases done : b.pending = [] <;> simp [barrier, done] at h
    | none =>
      cases ahead : p.ahead with
      | nil => simp [barrier, ahead] at h
      | cons q rest => cases hm : members q <;> simp [barrier, ahead, hm] at h

namespace Controller

variable {c d c₀ : Controller} {x : Action} {history later : List Action} {id i : Nat} {r : Run}
  {p p' : PhaseRun} {k : Call} {q : Priority} {phase : Phase} {request : Request} {g : Group}
  {l : Launch} {reached : List Launch} {v : PhaseResult} {stage : RunStage} {f : Failure}

/-- By this action the phase of run `id` returns. -/
inductive Returns (c : Controller) (id : Nat) (phase : Phase) : Action → PhaseResult → Prop
  | ok (r : Run) (p : PhaseRun) (run : c.runs[id]? = some r) (active : r.stage = .active p)
      (asks : p.request.phase = phase)
      (next : p.next (c.isCancelled (r.token id)) c.registry.members = .completed) :
    Returns c id phase (.turn id) .ok
  | canceled (r : Run) (p : PhaseRun) (run : c.runs[id]? = some r) (active : r.stage = .active p)
      (asks : p.request.phase = phase)
      (next : p.next (c.isCancelled (r.token id)) c.registry.members = .canceled) :
    Returns c id phase (.turn id) .canceled
  /-- An awaited call is seen to have failed. -/
  | failed (r : Run) (p : PhaseRun) (b : Barrier) (call : Nat) (k : Call) (ending : Ending)
      (e : ActivityError) (run : c.runs[id]? = some r) (active : r.stage = .active p)
      (asks : p.request.phase = phase) (live : c.isCancelled (r.token id) = false)
      (barrier : p.barrier? = some b) (pending : call ∈ b.pending)
      (made : c.calls[call]? = some k) (ended : k.ending? = some ending)
      (error : ending.error? = some e) :
    Returns c id phase (.collect id call) (.failed ⟨k.activity.name, b.priority, e⟩)

/-- In the course of a history the phase of run `id` returns. -/
def ReturnsIn (c : Controller) (id : Nat) (phase : Phase) (history : List Action)
    (v : PhaseResult) : Prop :=
  ∃ before x later, history = before ++ x :: later ∧ (c.after before).Returns id phase x v

/-- The group that run `id` reaches in this phase by an action. -/
def launch? (c : Controller) (id : Nat) (phase : Phase) (x : Action) : Option Launch :=
  (c.reached? id phase x).map fun g => ⟨c.calls.length, g⟩

/-- The groups that run `id` reaches in this phase in the course of a history. -/
def launches (c : Controller) (id : Nat) (phase : Phase) : List Action → List Launch
  | [] => []
  | x :: later => (c.launch? id phase x).toList ++ (c.step x).launches id phase later

def Returned (c : Controller) (i : Nat) : Prop :=
  ∃ k, c.calls[i]? = some k ∧ k.ending? = some .returned

def Uncancelled (c : Controller) (id : Nat) : Prop :=
  ∀ r, c.runs[id]? = some r → c.isCancelled (r.token id) = false

/-- The run has left the phase, or it is resolved. -/
def Over (c : Controller) (id : Nat) (phase : Phase) : Prop :=
  ∃ r, c.runs[id]? = some r ∧ ∀ p, r.stage = .active p →
    phase = .prepare ∧ p.request.phase = .suspend

/-- Run `id` is in the phase `p` and has reached these groups in it. -/
structure Working (c : Controller) (id : Nat) (reached : List Launch) (p : PhaseRun) : Prop where
  active : ∃ r, c.runs[id]? = some r ∧ r.stage = .active p
  /-- All calls have returned, but for those that the run is waiting for. -/
  returned : ∀ l ∈ reached, ∀ i ∈ l.calls,
    c.Returned i ∨ ∃ b, p.barrier? = some b ∧ i ∈ b.pending
  /-- These are to members of the group that was reached last. -/
  waits : ∀ b, p.barrier? = some b → ∃ earlier l, reached = earlier ++ [l] ∧
    b.priority = l.group.priority ∧ (∀ i ∈ b.pending, i ∈ l.calls) ∧
    ∀ l' ∈ earlier, ∀ i ∈ l'.calls, c.Returned i

/-! ## Launches -/

theorem group_launch? : (c.launch? id phase x).map Launch.group = c.reached? id phase x := by
  simp [launch?, Function.comp_def]

theorem map_launches (c : Controller) (id : Nat) (phase : Phase) (history : List Action) :
    (c.launches id phase history).map Launch.group = c.reached id phase history := by
  induction history generalizing c with
  | nil => rfl
  | cons x later ih =>
    rw [launches, reached, List.map_append, ih, ← group_launch?]
    cases c.launch? id phase x <;> rfl

theorem launches_append (c : Controller) (id : Nat) (phase : Phase) (h h' : List Action) :
    c.launches id phase (h ++ h') = c.launches id phase h ++ (c.after h).launches id phase h' := by
  induction h generalizing c with
  | nil => rfl
  | cons x h ih => simp [launches, ih]

theorem launches_concat (c : Controller) (id : Nat) (phase : Phase) (h : List Action)
    (x : Action) : c.launches id phase (h ++ [x]) =
      c.launches id phase h ++ ((c.after h).launch? id phase x).toList := by
  simp [launches_append, launches]

theorem call_of_launch? (now : c.launch? id phase x = some l) {j : Nat} {a : Activity}
    (member : l.group.members[j]? = some a) :
    ∃ k, (c.step x).calls[l.first + j]? = some k ∧ k.activity = a := by
  obtain ⟨g, reached, rfl⟩ := Option.map_eq_some_iff.1 now
  obtain ⟨rfl, members, request, -, reaches⟩ := reached?_eq_some_iff.1 reached
  obtain ⟨new, calls, callees, -⟩ := reaches.calls_step
  rw [members, ← callees, List.getElem?_map, Option.map_eq_some_iff] at member
  obtain ⟨k, hk, activity⟩ := member
  refine ⟨k, ?_, activity⟩
  rw [calls, List.getElem?_append_right (Nat.le_add_right _ _), Nat.add_sub_cancel_left, hk]

theorem call_of_launches (member : l ∈ c.launches id phase history) {j : Nat} {a : Activity}
    (there : l.group.members[j]? = some a) :
    ∃ k, (c.after history).calls[l.first + j]? = some k ∧ k.activity = a := by
  induction history generalizing c with
  | nil => cases member
  | cons x later ih =>
    rw [launches, List.mem_append, Option.mem_toList] at member
    rcases member with now | afterwards
    · obtain ⟨k, made, rfl⟩ := call_of_launch? now there
      obtain ⟨k', made', kept⟩ := (later_after (c.step x) later).calls made
      exact ⟨k', made', kept.activity⟩
    · exact ih afterwards

theorem Returned.of_later (h : c.Returned i) (since : c.Later d) : d.Returned i := by
  obtain ⟨k, made, returned⟩ := h
  obtain ⟨k', made', kept⟩ := since.calls made
  exact ⟨k', made', kept.ending _ returned⟩

/-! ## One action -/

/-- What the controller does when a phase returns. -/
theorem Returns.step_eq (h : c.Returns id phase x v) : ∃ r p, c.runs[id]? = some r ∧
    r.stage = .active p ∧ p.request.phase = phase ∧
    (v = .ok ∧ p.barrier? = none ∧ p.ahead = [] ∧ c.step x = c.completePhase id r p.request ∨
      v = .canceled ∧ c.step x = c.resolve id (.error .canceled) ∨
      ∃ f b, v = .failed f ∧ p.barrier? = some b ∧ c.step x = c.fail id phase b.token f) := by
  cases h with
  | ok r p run active asks next =>
    have unresolved := activeRun?_eq_some.2 ⟨run, active⟩
    obtain ⟨barrier, ahead⟩ := PhaseRun.next_eq_completed.1 next
    exact ⟨r, p, run, active, asks,
      .inl ⟨rfl, barrier, ahead, by simp [step, turn?, unresolved, next]⟩⟩
  | canceled r p run active asks next =>
    have unresolved := activeRun?_eq_some.2 ⟨run, active⟩
    exact ⟨r, p, run, active, asks, .inr (.inl ⟨rfl, by simp [step, turn?, unresolved, next]⟩)⟩
  | failed r p b call k ending e run active asks live barrier pending made ended error =>
    refine ⟨r, p, run, active, asks, .inr (.inr ⟨_, b, rfl, barrier, ?_⟩)⟩
    rw [step_collect_eq run active live barrier pending made ended, error, asks]

/-- A run of which a phase has failed is resolved with the error of that phase, for good. -/
theorem ReturnsIn.outcome (h : c.ReturnsIn id phase history (.failed f)) :
    (c.after history).outcome? (.run id) = some (.error (.ofPhase phase f.error)) := by
  obtain ⟨before, x, later, rfl, returns⟩ := h
  obtain ⟨r, p, run, -, -, ⟨ok, -⟩ | ⟨canceled, -⟩ | ⟨f', b, same, -, fails⟩⟩ := returns.step_eq
  · cases ok
  · cases canceled
  · cases same
    rw [after_append, after_cons]
    refine (later_after _ later).outcome? ?_
    simp [fails, outcome?, fail, resolve, runs_setStage, run, Run.outcome?]

/-! ### A phase that goes on -/

theorem launch?_of_reaches {rest : List Priority} (run : c.runs[id]? = some r)
    (active : r.stage = .active p) (live : c.isCancelled (r.token id) = false)
    (barrier : p.barrier? = none) (ahead : p.ahead = q :: rest) :
    c.launch? id p.request.phase (.turn id) =
      some ⟨c.calls.length, ⟨q, c.registry.members q⟩⟩ := by
  have reaches : c.Reaches id p.request q := by
    refine ⟨r, rest, run, ?_, live⟩
    rw [active, ← barrier, ← ahead]
  have now : c.reached? id p.request.phase (.turn id) = some ⟨q, c.registry.members q⟩ :=
    reached?_eq_some_iff.2 ⟨rfl, rfl, p.request, rfl, reaches⟩
  rw [launch?, now]
  rfl

/-- Only a run that is between two groups reaches one. -/
theorem launch?_eq_none (run : c.runs[id]? = some r) (active : r.stage = .active p)
    (busy : p.barrier? ≠ none ∨ p.ahead = [] ∨ x ≠ .turn id) : c.launch? id phase x = none := by
  rw [launch?, Option.map_eq_none_iff, Option.eq_none_iff_forall_ne_some]
  intro g reached
  obtain ⟨turn, -, request, -, r', rest, run', active', -⟩ := reached?_eq_some_iff.1 reached
  rw [run] at run'
  cases run'
  rw [active] at active'
  cases active'
  rcases busy with barrier | ahead | other
  · exact barrier rfl
  · cases ahead
  · exact other turn

theorem launch?_eq_none_of_stays (phase : Phase) (run : c.runs[id]? = some r)
    (stays : (c.step x).runs[id]? = some r) : c.launch? id phase x = none := by
  rw [launch?, Option.map_eq_none_iff, Option.eq_none_iff_forall_ne_some]
  intro g reached
  obtain ⟨rfl, -, request, -, reaches⟩ := reached?_eq_some_iff.1 reached
  obtain ⟨r', rest, barrier?, run', active, runs⟩ := reaches.runs_step
  rw [runs, runs_setStage, if_pos rfl, run'] at stays
  rw [run] at run'
  cases run'
  have same := congrArg Run.stage (Option.some.inj stays)
  simp [active] at same

theorem Working.of_later (w : c.Working id reached p) (since : c.Later d)
    (stays : ∀ r, c.runs[id]? = some r → d.runs[id]? = some r) : d.Working id reached p where
  active := by
    obtain ⟨r, run, active⟩ := w.active
    exact ⟨r, stays r run, active⟩
  returned l member i call := (w.returned l member i call).imp_left fun h => h.of_later since
  waits b barrier := by
    obtain ⟨earlier, l, split, priority, pending, returned⟩ := w.waits b barrier
    exact ⟨earlier, l, split, priority, pending,
      fun l' member i call => (returned l' member i call).of_later since⟩

theorem Working.all_returned (w : c.Working id reached p)
    (barrier : p.barrier? = none) : ∀ l ∈ reached, ∀ i ∈ l.calls, c.Returned i := by
  intro l member i call
  rcases w.returned l member i call with returned | ⟨b, waits, -⟩
  · exact returned
  · rw [barrier] at waits
    cases waits

/-- Unless it is cancelled, a run that moves goes on in its phase, or the phase returns. -/
theorem Move.goesOn_or_returns (move : c.Move id r p x stage d) (run : c.runs[id]? = some r)
    (active : r.stage = .active p) (live : c.isCancelled (r.token id) = false) :
    (∃ p', stage = .active p' ∧ p'.request = p.request) ∨
      ∃ v, c.Returns id p.request.phase x v := by
  have through (barrier : p.barrier? = none) (ahead : p.ahead = []) :
      c.Returns id p.request.phase (.turn id) .ok :=
    .ok r p run active rfl (PhaseRun.next_eq_completed.2 ⟨barrier, ahead⟩)
  cases move with
  | gaveUp why =>
    rcases why with cancelled | ⟨barrier, ahead, -⟩
    · rw [live] at cancelled
      cases cancelled
    · exact .inr ⟨_, through barrier ahead⟩
  | prepared context barrier ahead | suspended context barrier ahead
  | resumed context barrier ahead => exact .inr ⟨_, through barrier ahead⟩
  | failed call b k ending e live barrier pending made ended error =>
    exact .inr ⟨_, .failed r p b call k ending e run active rfl live barrier pending made ended
      error⟩
  | passedBarrier | passedGroup | launched | succeeded => exact .inl ⟨_, rfl, rfl⟩

theorem Working.succeed (w : c.Working id reached p) {call : Nat} {b : Barrier}
    (barrier : p.barrier? = some b) (returned : d.Returned call) (later : c.Later d)
    (active : ∃ r, d.runs[id]? = some r ∧ r.stage = .active (p.succeed call)) :
    d.Working id reached (p.succeed call) where
  active := active
  returned l member i hi := by
    rcases w.returned l member i hi with returned | ⟨b', barrier', pending⟩
    · exact .inl (returned.of_later later)
    · by_cases noted : i = call
      · exact .inl (noted ▸ returned)
      · refine .inr ⟨{ b' with pending := b'.pending.erase call }, ?_, ?_⟩
        · simp [PhaseRun.succeed, barrier']
        · exact (List.mem_erase_of_ne noted).2 pending
  waits b' barrier' := by
    simp only [PhaseRun.succeed, barrier, Option.map_some, Option.some.injEq] at barrier'
    subst barrier'
    obtain ⟨earlier, l, split, priority, pending, returned⟩ := w.waits b barrier
    exact ⟨earlier, l, split, priority, fun i hi => pending i (List.mem_of_mem_erase hi),
      fun l' member i hi => (returned l' member i hi).of_later later⟩

/-- The run reaches the group of `l`, and waits for calls to members of it or for nobody. -/
theorem Working.reach (w : c.Working id reached p) (barrier : p.barrier? = none)
    (later : c.Later d) (active : ∃ r, d.runs[id]? = some r ∧ r.stage = .active p')
    (waits : ∀ i ∈ l.calls, ∃ b, p'.barrier? = some b ∧ i ∈ b.pending)
    (group : ∀ b, p'.barrier? = some b → b.priority = l.group.priority ∧ b.pending = l.calls) :
    d.Working id (reached ++ [l]) p' where
  active := active
  returned l' member i call := by
    rcases List.mem_append.1 member with old | new
    · exact .inl ((w.all_returned barrier l' old i call).of_later later)
    · rw [List.mem_singleton.1 new] at call
      exact .inr (waits i call)
  waits b barrier' := by
    obtain ⟨priority, pending⟩ := group b barrier'
    exact ⟨reached, l, rfl, priority, fun i hi => pending ▸ hi,
      fun l' member i call => (w.all_returned barrier l' member i call).of_later later⟩

theorem Working.move (w : c.Working id reached p) (move : c.Move id r p x (.active p') d)
    (run : c.runs[id]? = some r) (active : r.stage = .active p) (asks : p'.request = p.request)
    (later : c.Later d) :
    d.Working id (reached ++ (c.launch? id p.request.phase x).toList) p' ∧
      p.ahead = (c.launch? id p.request.phase x).toList.map (·.group.priority) ++ p'.ahead := by
  have active' : ∃ r, d.runs[id]? = some r ∧ r.stage = .active p' :=
    ⟨{ r with stage := .active p' }, by rw [move.runs, runs_setStage, if_pos rfl, run]; rfl, rfl⟩
  cases move with
  | prepared context barrier ahead request may => rw [request] at asks; cases asks
  | passedBarrier b live barrier done =>
    rw [launch?_eq_none run active (.inl (by simp [barrier]))]
    refine ⟨?_, rfl⟩
    rw [Option.toList_none, List.append_nil]
    refine ⟨active', fun l member i call => .inl ?_, by rintro b ⟨⟩⟩
    rcases w.returned l member i call with returned | ⟨b', barrier', pending⟩
    · exact returned.of_later later
    · rw [barrier] at barrier'
      cases barrier'
      rw [done] at pending
      cases pending
  | passedGroup q rest live barrier ahead empty =>
    rw [launch?_of_reaches run active live barrier ahead]
    refine ⟨w.reach barrier later active' ?_ ?_, by simp [ahead]⟩
    · simp [Launch.calls, empty]
    · simp [barrier]
  | launched q rest live barrier ahead inhabited =>
    rw [launch?_of_reaches run active live barrier ahead]
    refine ⟨w.reach barrier later active' (fun i call => ⟨_, rfl, call⟩) ?_, by
      simp [ahead, PhaseRun.await]⟩
    rintro b ⟨⟩
    exact ⟨rfl, rfl⟩
  | succeeded call b k live barrier pending made ending =>
    rw [launch?_eq_none run active (.inl (by simp [barrier]))]
    refine ⟨?_, rfl⟩
    rw [Option.toList_none, List.append_nil]
    exact w.succeed barrier (Returned.of_later ⟨k, made, ending⟩ later) later active'

/-- **A phase that is not cancelled goes on or returns.** -/
theorem Working.step (w : c.Working id reached p)
    (live : c.Uncancelled id) (x : Action) :
    (∃ v, c.Returns id p.request.phase x v) ∨
      ∃ p', (c.step x).Working id (reached ++ (c.launch? id p.request.phase x).toList) p' ∧
        p'.request = p.request ∧
        p.ahead = (c.launch? id p.request.phase x).toList.map (·.group.priority) ++ p'.ahead := by
  obtain ⟨r, run, active⟩ := w.active
  have hs := step_spec c x
  obtain ⟨s, run', -⟩ := hs.later.runs run
  by_cases same : s = r
  · subst same
    have idle := launch?_eq_none_of_stays p.request.phase run run'
    refine .inr ⟨p, ?_, rfl, by simp [idle]⟩
    rw [idle, Option.toList_none, List.append_nil]
    exact w.of_later hs.later fun r run'' => by rw [run] at run''; cases run''; exact run'
  · obtain ⟨p₀, stage, active', -, move⟩ := hs.move_of_ne run run' same
    rw [active] at active'
    cases active'
    rcases move.goesOn_or_returns run active (live r run) with ⟨p', rfl, asks⟩ | returns
    · obtain ⟨working, ahead⟩ := w.move move run active asks hs.later
      exact .inr ⟨p', working, asks, ahead⟩
    · exact .inl returns

/-! ### A phase that is over -/

theorem over_of_setStage (stage : RunStage) (run : c.runs[id]? = some r)
    (runs : d.runs = (c.setStage id stage).runs)
    (past : ∀ p, stage = .active p → phase = .prepare ∧ p.request.phase = .suspend) :
    d.Over id phase := by
  refine ⟨{ r with stage }, ?_, past⟩
  rw [runs, runs_setStage, if_pos rfl, run]
  rfl

theorem Returns.over (h : c.Returns id phase x v) : (c.step x).Over id phase := by
  obtain ⟨r, p, run, active, asks, ⟨-, barrier, ahead, step⟩ | ⟨-, step⟩ | ⟨f, b, -, -, step⟩⟩ :=
    h.step_eq
  · obtain ⟨stage, move⟩ : ∃ stage, c.Move id r p (.turn id) stage
        (c.completePhase id r p.request) := move_completePhase barrier ahead
    rw [step]
    generalize c.completePhase id r p.request = d at move
    refine over_of_setStage _ run move.runs fun p' stage' => ?_
    subst stage'
    cases move with
    | prepared context _ _ request may => exact ⟨by rw [← asks, request]; rfl, rfl⟩
    | passedBarrier b live waits => rw [barrier] at waits; cases waits
    | passedGroup q rest live none there | launched q rest live none there =>
      rw [ahead] at there
      cases there
  · rw [step]
    exact over_of_setStage _ run rfl (by rintro p ⟨⟩)
  · rw [step]
    refine over_of_setStage (.resolved (.error (.ofPhase phase f.error))) run ?_
      (by rintro p ⟨⟩)
    simp [fail, resolve, setStage]

theorem Over.step (finished : c.Over id phase) (hs : Step c x d) : d.Over id phase := by
  obtain ⟨r, run, past⟩ := finished
  obtain ⟨s, run', -⟩ := hs.later.runs run
  refine ⟨s, run', fun p' active' => ?_⟩
  by_cases same : s = r
  · exact past p' (same ▸ active')
  · obtain ⟨p, stage, active, rfl, move⟩ := hs.move_of_ne run run' same
    cases active'
    obtain ⟨prepare, asks⟩ := past p active
    rcases move.goesOn with ⟨request, -⟩ | ⟨prepares, -⟩
    · exact ⟨prepare, request ▸ asks⟩
    · rw [asks] at prepares
      cases prepares

theorem Over.not_active (finished : c.Over id phase) (run : c.runs[id]? = some r)
    (active : r.stage = .active p) : p.request.phase ≠ phase := by
  intro asks
  obtain ⟨r', run', past⟩ := finished
  rw [run] at run'
  cases run'
  obtain ⟨rfl, suspends⟩ := past p active
  rw [asks] at suspends
  cases suspends

theorem Over.launches (finished : c.Over id phase) (history : List Action) :
    c.launches id phase history = [] := by
  induction history generalizing c with
  | nil => rfl
  | cons x later ih =>
    have none : c.launch? id phase x = none := by
      rw [launch?, Option.map_eq_none_iff, Option.eq_none_iff_forall_ne_some]
      intro g reached
      obtain ⟨-, -, request, asks, r, rest, run, active, -⟩ := reached?_eq_some_iff.1 reached
      exact finished.not_active run active asks
    rw [Controller.launches, none, ih (finished.step (step_spec c x))]
    rfl

theorem Over.not_returns (finished : c.Over id phase) : ¬ c.Returns id phase x v := by
  intro returns
  obtain ⟨r, p, run, active, asks, -⟩ := returns.step_eq
  exact finished.not_active run active asks

/-! ## Histories -/

theorem Uncancelled.of_later (h : d.Uncancelled id) (later : c.Later d) : c.Uncancelled id := by
  intro r run
  obtain ⟨s, run', kept⟩ := later.runs run
  have live := h s run'
  rw [kept.token_eq] at live
  rw [← Bool.not_eq_true] at live ⊢
  exact fun cancelled => live (later.isCancelled cancelled)

theorem ReturnsIn.over (h : c.ReturnsIn id phase history v) : (c.after history).Over id phase := by
  obtain ⟨before, x, later, rfl, returns⟩ := h
  rw [after_append, after_cons]
  exact after_induction (P := fun c => c.Over id phase) returns.over
    (fun hs finished => Over.step finished hs) later

theorem ReturnsIn.concat (h : c.ReturnsIn id phase history v) (x : Action) :
    c.ReturnsIn id phase (history ++ [x]) v := by
  obtain ⟨before, y, later, rfl, returns⟩ := h
  exact ⟨before, y, later ++ [x], by simp, returns⟩

theorem Returns.launches {before : List Action} (h : (c.after before).Returns id phase x v)
    (later : List Action) :
    c.launches id phase (before ++ x :: later) = c.launches id phase before := by
  have none : (c.after before).launch? id phase x = none := by
    rw [launch?, Option.map_eq_none_iff, Option.eq_none_iff_forall_ne_some]
    intro g reached
    obtain ⟨rfl, -, request, asks, reaches⟩ := reached?_eq_some_iff.1 reached
    obtain ⟨r, rest, barrier?, run, -, runs⟩ := reaches.runs_step
    have goesOn : ((c.after before).step (.turn id)).runs[id]? =
        some { r with stage := .active ⟨request, rest, barrier?⟩ } := by
      rw [runs, runs_setStage, if_pos rfl, run]
      rfl
    exact h.over.not_active goesOn rfl asks
  rw [launches_append, Controller.launches, none, h.over.launches]
  simp

/-- **Unless it is cancelled, a phase is working until it returns.** -/
theorem Working.after (w : c.Working id [] p) (history : List Action)
    (live : (c.after history).Uncancelled id) :
    (∃ v, c.ReturnsIn id p.request.phase history v) ∨
      ∃ p', (c.after history).Working id (c.launches id p.request.phase history) p' ∧
        p'.request = p.request ∧
        p.ahead = (c.launches id p.request.phase history).map (·.group.priority) ++ p'.ahead := by
  induction history using List.reverseRecOn with
  | nil => exact .inr ⟨p, w, rfl, rfl⟩
  | append_singleton h x ih =>
    rw [after_concat] at live
    rw [after_concat]
    have live' := live.of_later (step_spec (c.after h) x).later
    rcases ih live' with ⟨v, returned⟩ | ⟨p', working, asks, ahead⟩
    · exact .inl ⟨v, returned.concat x⟩
    · rw [launches_concat]
      rcases working.step live' x with ⟨v, returns⟩ | ⟨p'', working', asks', ahead'⟩
      · exact .inl ⟨v, h, x, [], rfl, asks ▸ returns⟩
      · refine .inr ⟨p'', asks ▸ working', asks'.trans asks, ?_⟩
        rw [ahead, ahead', asks, List.map_append, List.append_assoc]

end Controller

end Quiesce
