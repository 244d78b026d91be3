import Quiesce.Proofs.EventStream
import Quiesce.Waiter
/-!
# Suspends share attempts

Only a suspend that meets a running server opens an attempt, and that is when a run is started that
prepares and when the event stream tells of a beginning: the three counts agree (`Step.prepareRuns`,
`Step.started`). Every other suspend leaves the controller as it is. Whoever gets a handle on an
attempt gets the one handle that its generation has (`Handed.eq`), since the attempt changes with
its generation only (`Step.attempt_eq`).
-/

namespace Quiesce

/-- The run begins by preparing. -/
def Run.prepares (r : Run) : Bool :=
  r.purpose.opening.phase = .prepare

theorem Run.report?_ne_started (r : Run) : r.report? ≠ some .suspendStarted := by
  unfold report?
  split <;> simp

namespace Controller

variable {c d c₀ : Controller} {x : Action} {history : List Action} {q q' : Completion} {g : Nat}

/-- The action is a suspend that meets a running server. -/
def opens (c : Controller) : Action → Bool
  | .suspend _ => c.state = .running
  | _ => false

/-- How many suspends of a history meet a running server. -/
def openings (c : Controller) : List Action → Nat
  | [] => 0
  | x :: later => (if c.opens x then 1 else 0) + (c.step x).openings later

/-- How many runs were ever started that prepare. -/
def prepareRuns (c : Controller) : Nat :=
  c.runs.countP Run.prepares

/-- In the course of the history this handle was given out on the attempt of generation `g`. -/
inductive Handed (c₀ : Controller) (history : List Action) (g : Nat) : Completion → Prop
  /-- The current attempt was asked for. -/
  | asked (before rest : List Action) (split : history = before ++ rest)
      (current : (c₀.after before).attempt.generation = g) :
    Handed c₀ history g (c₀.after before).attempt.completion
  /-- A suspend opened the attempt, or it joined the attempt. -/
  | suspended (before : List Action) (context : SuspendContext) (rest : List Action)
      (split : history = before ++ .suspend context :: rest)
      (current : ((c₀.after before).step (.suspend context)).attempt.generation = g) :
    Handed c₀ history g ((c₀.after before).suspend context).2

/-! ## One action -/

theorem suspend_of_not_running (notRunning : c.state ≠ .running) (context : SuspendContext) :
    c.suspend context = (c, c.attempt.completion) := by
  rw [suspend, if_neg notRunning]

theorem completion_suspend (c : Controller) (context : SuspendContext) :
    (c.suspend context).2 = (c.step (.suspend context)).attempt.completion := by
  by_cases running : c.state = .running
  · simp [step, suspend, running]
  · simp [step, suspend, running]

theorem Idle.opens (idle : c.Idle x) : c.opens x = false := by
  cases x with
  | suspend context =>
    have notRunning : c.state ≠ .running := idle
    simp [Controller.opens, notRunning]
  | _ => rfl

theorem Move.opens {id : Nat} {r : Run} {p : PhaseRun} {stage : RunStage}
    (move : c.Move id r p x stage d) : c.opens x = false := by
  cases move <;> rfl

theorem prepareRuns_setStage (c : Controller) (id : Nat) (s : RunStage) :
    (c.setStage id s).prepareRuns = c.prepareRuns := by
  have same : ∀ (rs : List Run) (i : Nat),
      (rs.modify i fun r => { r with stage := s }).countP Run.prepares =
        rs.countP Run.prepares := by
    intro rs
    induction rs with
    | nil => simp
    | cons r rs ih =>
      intro i
      cases i with
      | zero => simp [List.countP_cons, Run.prepares]
      | succ i => simp [List.countP_cons, ih]
  exact same c.runs id

/-- A run that prepares is started exactly by a suspend that meets a running server. -/
theorem Step.prepareRuns (hs : Step c x d) :
    d.prepareRuns = c.prepareRuns + if c.opens x then 1 else 0 := by
  cases hs with
  | idle x why => simp [Idle.opens why]
  | opened context running =>
    simp [Controller.prepareRuns, Controller.opens, running, Run.prepares, Run.start,
      Purpose.opening, Request.phase]
  | resuming context notRunning =>
    simp [Controller.prepareRuns, Controller.opens, Run.prepares, Run.start, Purpose.opening,
      Request.phase]
  | moved id r p stage run active move =>
    have same : d.prepareRuns = (c.setStage id stage).prepareRuns :=
      congrArg (List.countP Run.prepares) move.runs
    rw [same, prepareRuns_setStage]
    simp [move.opens]
  | _ => simp [Controller.prepareRuns, Controller.opens, finish]

/-- The beginning of an attempt is told exactly of a suspend that meets a running server. -/
theorem Step.started (hs : Step c x d) (h : c.Coherent) :
    (c.told d).count .suspendStarted = if c.opens x then 1 else 0 := by
  cases hs with
  | idle x why => simp [told_of_hub, Idle.opens why]
  | opened context running =>
    refine (congrArg _ (told_emit rfl rfl)).trans ?_
    simp [Controller.opens, running, Notice.suspendStarted]
  | resuming context notRunning =>
    refine (congrArg _ (told_emit (by simp) rfl)).trans ?_
    simp [Controller.opens, Notice.suspendCancelled]
  | registered | lateRegistered | unregistered =>
    refine (congrArg _ (told_emit rfl rfl)).trans ?_
    simp [Controller.opens, Notice.registered, Notice.unregistered]
  | reset | cancelled => simp [told_of_hub, Controller.opens]
  | finished => simp [told_of_hub, Controller.opens, finish]
  | listeners y => simp [told_listeners, Controller.opens]
  | moved id r p stage run active move =>
    rw [move.told h run active, move.opens]
    have other := Run.report?_ne_started { r with stage }
    cases report : Run.report? { r with stage } with
    | none => rfl
    | some kind =>
      have ne : kind ≠ .suspendStarted := by
        rintro rfl
        exact other report
      simp [ne]

theorem Step.attempt_eq (hs : Step c x d) (same : c.supersedes x = false) :
    d.attempt = c.attempt := by
  cases hs with
  | opened context running => simp [supersedes, running] at same
  | reset => simp [supersedes] at same
  | moved id r p stage run active move => exact move.attempt
  | resuming | cancelled => simp
  | _ => rfl

/-! ## Histories -/

theorem openings_append (c : Controller) (h h' : List Action) :
    c.openings (h ++ h') = c.openings h + (c.after h).openings h' := by
  induction h generalizing c with
  | nil => simp [openings]
  | cons x h ih => simp [openings, ih, Nat.add_assoc]

/-- What is told of a kind that is not about listeners is what the journal has of it. -/
theorem count_told {kind : EventKind} (server : kind.isSubscriberEvent = false) :
    (c.told d).count kind = ((c.created d).map (·.kind)).count kind := by
  rw [told, List.count_filter (by simp [server])]

theorem prepareRuns_after (new : c₀.New) (history : List Action) :
    (c₀.after history).prepareRuns = c₀.openings history := by
  induction history using List.reverseRecOn with
  | nil => simp [prepareRuns, new.runs, openings]
  | append_singleton h x ih =>
    rw [after_concat, (step_spec (c₀.after h) x).prepareRuns, ih, openings_append]
    simp [openings]

theorem started_after (new : c₀.New) (history : List Action) :
    ((c₀.after history).hub.journal.toList.map (·.kind)).count .suspendStarted =
      c₀.openings history := by
  induction history using List.reverseRecOn with
  | nil => simp [new.journal, openings]
  | append_singleton h x ih =>
    have hs := step_spec (c₀.after h) x
    rw [after_concat, hs.journal, List.map_append, List.count_append, ih, ← count_told rfl,
      hs.started (coherent_after new h), openings_append]
    simp [openings]

theorem attempt_eq_of_generation {later : List Action}
    (same : (c.after later).attempt.generation = c.attempt.generation) :
    (c.after later).attempt = c.attempt := by
  rw [← undisturbed_iff] at same
  induction later generalizing c with
  | nil => rfl
  | cons x later ih =>
    rw [after_cons, ih same.2]
    exact (step_spec c x).attempt_eq same.1

theorem attempt_eq_of_append {before rest before' rest' : List Action}
    (split : before ++ rest = before' ++ rest')
    (same : (c₀.after before).attempt.generation = (c₀.after before').attempt.generation) :
    (c₀.after before).attempt = (c₀.after before').attempt := by
  rcases List.append_eq_append_iff.1 split with ⟨between, rfl, -⟩ | ⟨between, rfl, -⟩
  · rw [after_append] at same ⊢
    exact (attempt_eq_of_generation same.symm).symm
  · rw [after_append] at same ⊢
    exact attempt_eq_of_generation same

/-- A handle on an attempt is the one that the attempt has at some moment. -/
theorem Handed.moment (handed : c₀.Handed history g q) :
    ∃ before rest, history = before ++ rest ∧ (c₀.after before).attempt.generation = g ∧
      (c₀.after before).attempt.completion = q := by
  cases handed with
  | asked before rest split current => exact ⟨before, rest, split, current, rfl⟩
  | suspended before context rest split current =>
    refine ⟨before ++ [.suspend context], rest, by simp [split], ?_, ?_⟩
    · rw [after_concat]
      exact current
    · rw [after_concat, completion_suspend]

theorem Handed.eq (handed : c₀.Handed history g q) (handed' : c₀.Handed history g q') : q = q' := by
  obtain ⟨before, rest, split, current, rfl⟩ := handed.moment
  obtain ⟨before', rest', split', current', rfl⟩ := handed'.moment
  exact congrArg Attempt.completion
    (attempt_eq_of_append (split.symm.trans split') (current.trans current'.symm))

/-- Two suspends without an opening or a reset in between hand out the same handle. -/
theorem completion_eq_of_undisturbed {context context' : SuspendContext} {between : List Action}
    (undisturbed : (c.step (.suspend context)).Undisturbed (between ++ [.suspend context'])) :
    ((c.after (.suspend context :: between)).suspend context').2 = (c.suspend context).2 := by
  rw [undisturbed_iff] at undisturbed
  have same := attempt_eq_of_generation undisturbed
  rw [after_concat] at same
  rw [completion_suspend, completion_suspend, after_cons, same]

theorem outcome?_after {o : Outcome} (available : c.outcome? q = some o) (later : List Action) :
    (c.after later).outcome? q = some o := by
  cases q with
  | ready => exact available
  | run id => exact (later_after c later).outcome? available

/-! ## The law -/

/-- **Suspends share attempts.** As many runs that prepare were ever started as the event stream
tells of beginnings of attempts, and as there were suspends that met a running server. Every other
suspend changes nothing at all and hands out the handle of the current attempt. So two suspends,
between which and by the second of which no attempt was opened and nobody reset, hand out the same
handle; an attempt has one handle, whoever got it and when; and once a handle has an outcome,
it has that outcome for good, and everyone who waits receives it. -/
theorem suspends_coalesce (config : Config) (listeners : List Listener) (history : List Action) :
    let c₀ := create config listeners
    let c := c₀.after history
    c.prepareRuns = c₀.openings history ∧
    (c.hub.journal.toList.map (·.kind)).count .suspendStarted = c₀.openings history ∧
    (∀ context, c.state ≠ .running → c.suspend context = (c, c.attempt.completion)) ∧
    (∀ before context between context' rest,
      history = before ++ .suspend context :: between ++ .suspend context' :: rest →
      ((c₀.after before).step (.suspend context)).Undisturbed (between ++ [.suspend context']) →
      ((c₀.after (before ++ .suspend context :: between)).suspend context').2 =
        ((c₀.after before).suspend context).2) ∧
    (∀ g q q', c₀.Handed history g q → c₀.Handed history g q' → q = q') ∧
    ∀ q o, c.outcome? q = some o → ∀ later, (c.after later).outcome? q = some o ∧
      ∀ (w : Waiter) (now : Nat), w.poll now ((c.after later).outcome? q) = some o := by
  intro c₀ c
  have new : c₀.New := new_create config listeners
  refine ⟨prepareRuns_after new history, started_after new history,
    fun context notRunning => suspend_of_not_running notRunning context, ?_,
    fun g q q' handed handed' => handed.eq handed', ?_⟩
  · intro before context between context' rest split undisturbed
    rw [after_append]
    exact completion_eq_of_undisturbed undisturbed
  · intro q o available later
    have kept := outcome?_after available later
    exact ⟨kept, fun w now => kept ▸ w.poll_some now o⟩

/-- A second suspend joins an attempt that is cancelled meanwhile; both handles tell so, also after
a reset and another attempt. -/
theorem suspends_coalesce_cancelled :
    let c₀ := create { requestedState := .running } []
    let between : List Action := [.turn 0, .cancel 1]
    let history : List Action :=
      .suspend {} :: between ++ .suspend { stopping := true } :: [.turn 0]
    let later : List Action := [.reset, .resume {}, .suspend {}]
    let c := c₀.after history
    c.prepareRuns = 1 ∧
      ((c₀.after (.suspend {} :: between)).suspend { stopping := true }).2 =
        (c₀.suspend {}).2 ∧
      (c.after later).outcome? (c₀.suspend {}).2 = some (.error .canceled) := by
  intro c₀ between history later c
  obtain ⟨runs, -, -, shared, -, forever⟩ :=
    suspends_coalesce { requestedState := .running } [] history
  refine ⟨runs.trans (by decide), shared [] {} between _ [.turn 0] rfl ?_, ?_⟩
  · simp [undisturbed_iff]
    decide
  · exact (forever _ _ (by decide) later).1

end Controller

end Quiesce
