import Quiesce.Controller.Action
/-!
# What one action can do

`Step c x d` lists every way in which an action `x` can lead from a controller `c` to a controller
`d`, each with all that is known when it does; `Move` does this for the steps of a run. `step_spec`
says that the list is complete. Whatever holds after every history is proved from this list, one
case to each way, and no later proof looks into the functions that carry the actions out.
-/

namespace Quiesce

def Action.run? : Action → Option Nat
  | .turn run | .collect run _ => some run
  | _ => none

namespace Controller

/-- A run that is through with all groups may carry out what follows the phase that asked for this.
-/
def mayComplete (c : Controller) (id : Nat) (r : Run) : Request → Bool
  | .prepare _ => c.mayAdvance id r .preSuspend
  | .suspend _ => c.mayAdvance id r .suspending
  | .resume _ => c.attempt.generation = r.generation

/-- Why a run gives up at its turn: its token is cancelled, or it is through with all groups and may
not carry out what follows. -/
def GivesUp (c : Controller) (id : Nat) (r : Run) (p : PhaseRun) : Prop :=
  c.isCancelled (r.token id) = true ∨
    p.barrier? = none ∧ p.ahead = [] ∧ c.mayComplete id r p.request = false

/-- The action changes nothing, because it is not possible now or there is nothing to do. -/
def Idle (c : Controller) : Action → Prop
  | .suspend _ => c.state ≠ .running
  | .resume _ => c.state = .running
  | .cancel generation => c.attempt.generation < generation
  | .register a level =>
    (∃ e, Priority.ofLevel level = .error e) ∨ ∃ p, c.registry.priorityOf? a = some p
  | .unregister a => c.registry.priorityOf? a = none
  | .turn id => c.turn? id = none
  | .collect id call => c.collect? id call = none
  | .reset | .finish _ _ | .listeners _ => False

/-- A move of the unresolved run `id` in its phase `p`: the action, the stage that the run goes to,
and the controller that comes of it. -/
inductive Move (c : Controller) (id : Nat) (r : Run) (p : PhaseRun) :
    Action → RunStage → Controller → Prop
  /-- The run stops without success, and nothing else changes. -/
  | gaveUp (why : c.GivesUp id r p) :
    Move c id r p (.turn id) (.resolved (.error .canceled)) (c.resolve id (.error .canceled))
  /-- It leaves a barrier that every call has passed. -/
  | passedBarrier (b : Barrier) (live : c.isCancelled (r.token id) = false)
      (barrier : p.barrier? = some b) (done : b.pending = []) :
    Move c id r p (.turn id) (.active { p with barrier? := none })
      (c.setStage id (.active { p with barrier? := none }))
  /-- It goes past a group without members. -/
  | passedGroup (q : Priority) (rest : List Priority) (live : c.isCancelled (r.token id) = false)
      (barrier : p.barrier? = none) (ahead : p.ahead = q :: rest)
      (empty : c.registry.members q = []) :
    Move c id r p (.turn id) (.active { p with ahead := rest })
      (c.setStage id (.active { p with ahead := rest }))
  /-- It calls all members of the next group. -/
  | launched (q : Priority) (rest : List Priority) (live : c.isCancelled (r.token id) = false)
      (barrier : p.barrier? = none) (ahead : p.ahead = q :: rest)
      (inhabited : c.registry.members q ≠ []) :
    Move c id r p (.turn id)
      (.active <| p.await ⟨q, .child (r.token id) c.calls.length,
        List.range' c.calls.length (c.registry.members q).length⟩ rest)
      (c.launch id r p q (c.registry.members q) rest)
  /-- Everyone is prepared: the suspend phase begins. -/
  | prepared (context : SuspendContext) (barrier : p.barrier? = none) (ahead : p.ahead = [])
      (request : p.request = .prepare context) (may : c.mayAdvance id r .preSuspend = true) :
    Move c id r p (.turn id) (.active (.start (.suspend context)))
      ({ c with state := .suspending }.setStage id (.active (.start (.suspend context))))
  /-- Everyone is suspended. -/
  | suspended (context : SuspendContext) (barrier : p.barrier? = none) (ahead : p.ahead = [])
      (request : p.request = .suspend context) (may : c.mayAdvance id r .suspending = true) :
    Move c id r p (.turn id) (.resolved .ok)
      (({ c with state := .suspended }.resolve id .ok).emit .suspendComplete)
  /-- Everyone is resumed. -/
  | resumed (context : ResumeContext) (barrier : p.barrier? = none) (ahead : p.ahead = [])
      (request : p.request = .resume context) (current : c.attempt.generation = r.generation) :
    Move c id r p (.turn id) (.resolved .ok)
      (({ c with state := .running }.resolve id .ok).emit .resumeComplete)
  /-- It notes that an awaited call succeeded. -/
  | succeeded (call : Nat) (b : Barrier) (k : Call) (live : c.isCancelled (r.token id) = false)
      (barrier : p.barrier? = some b) (pending : call ∈ b.pending) (made : c.calls[call]? = some k)
      (ending : k.ending? = some .returned) :
    Move c id r p (.collect id call) (.active (p.succeed call))
      (c.setStage id (.active (p.succeed call)))
  /-- It notes that an awaited call failed. -/
  | failed (call : Nat) (b : Barrier) (k : Call) (ending : Ending) (e : ActivityError)
      (live : c.isCancelled (r.token id) = false) (barrier : p.barrier? = some b)
      (pending : call ∈ b.pending) (made : c.calls[call]? = some k)
      (ended : k.ending? = some ending) (error : ending.error? = some e) :
    Move c id r p (.collect id call) (.resolved (.error (.ofPhase p.request.phase e)))
      (c.fail id p.request.phase b.token ⟨k.activity.name, b.priority, e⟩)

/-- What an action does to a controller. -/
inductive Step (c : Controller) : Action → Controller → Prop
  | idle (x : Action) (why : c.Idle x) : Step c x c
  /-- A suspend of a running server opens an attempt. -/
  | opened (context : SuspendContext) (running : c.state = .running) :
    Step c (.suspend context) <|
      { c with
        state := .preSuspend
        attempt := ⟨c.attempt.generation + 1, .run c.runs.length, context⟩
        runs := c.runs ++ [Run.start (.suspend context) (c.attempt.generation + 1)]
      }.emit .suspendStarted
  /-- A resume of a server that is not running cancels the current attempt and starts a run. -/
  | resuming (context : ResumeContext) (notRunning : c.state ≠ .running) :
    Step c (.resume context) <|
      { c.cancelToken (.attempt c.attempt.generation) with
        runs := c.runs ++ [Run.start (.resume context) c.attempt.generation]
      }.emit .suspendCancelled
  | reset :
    Step c .reset
      { c.cancelToken (.attempt c.attempt.generation) with
        state := .suspended
        attempt := .initial (c.attempt.generation + 1) }
  | cancelled (generation : Nat) (known : generation ≤ c.attempt.generation) :
    Step c (.cancel generation) (c.cancelToken (.attempt generation))
  /-- A new activity registers while the server is running. -/
  | registered (a : Activity) (level : Nat) (p : Priority) (valid : Priority.ofLevel level = .ok p)
      (untracked : c.registry.priorityOf? a = none) (running : c.state = .running) :
    Step c (.register a level) <|
      { c with registry := c.registry.insert a p }.emit (.registered a p)
  /-- A new activity registers late, and is called to suspend. -/
  | lateRegistered (a : Activity) (level : Nat) (p : Priority)
      (valid : Priority.ofLevel level = .ok p) (untracked : c.registry.priorityOf? a = none)
      (notRunning : c.state ≠ .running) :
    Step c (.register a level)
      { { c with registry := c.registry.insert a p }.emit (.registered a p) with
        calls := c.calls ++
          [⟨a, .suspend c.attempt.context, .late c.calls.length, .late p, none⟩] }
  | unregistered (a : Activity) (p : Priority) (tracked : c.registry.priorityOf? a = some p) :
    Step c (.unregister a) <| { c with registry := c.registry.erase a }.emit (.unregistered a p)
  | finished (call : Nat) (e : Ending) : Step c (.finish call e) (c.finish call e)
  | listeners (x : ListenerAction) : Step c (.listeners x) { c with hub := c.hub.stepListeners x }
  | moved {x : Action} {d : Controller} (id : Nat) (r : Run) (p : PhaseRun) (stage : RunStage)
      (run : c.runs[id]? = some r) (active : r.stage = .active p) (move : c.Move id r p x stage d) :
    Step c x d

/-! ## Moves -/

section
variable {c d : Controller} {x : Action} {id : Nat} {r : Run} {p : PhaseRun} {stage : RunStage}

/-- Only a step of the run itself moves it. -/
theorem Move.run?_eq (h : c.Move id r p x stage d) : x.run? = some id := by
  cases h <;> rfl

theorem Move.runs (h : c.Move id r p x stage d) : d.runs = (c.setStage id stage).runs := by
  cases h <;> simp [resolve, launch, fail, setStage]

@[simp] theorem Move.attempt (h : c.Move id r p x stage d) : d.attempt = c.attempt := by
  cases h <;> simp [resolve, launch, fail]

theorem Move.registry (h : c.Move id r p x stage d) : d.registry = c.registry := by
  cases h <;> simp [resolve, launch, fail]

theorem Move.calls (h : c.Move id r p x stage d) : c.calls <+: d.calls := by
  cases h <;> simp [resolve, launch, fail]

theorem Move.cancelled (h : c.Move id r p x stage d) {t : Token} (ht : t ∈ c.cancelled) :
    t ∈ d.cancelled := by
  cases h <;> simp [resolve, launch, fail, ht]

end

theorem Step.of_run? {c d : Controller} {x : Action} {id : Nat} (h : Step c x d)
    (hx : x.run? = some id) :
    d = c ∨ ∃ r p stage, c.runs[id]? = some r ∧ r.stage = .active p ∧ c.Move id r p x stage d := by
  cases h with
  | idle x why => exact .inl rfl
  | moved id' r p stage run active move =>
    rw [move.run?_eq] at hx
    cases hx
    exact .inr ⟨r, p, stage, run, active, move⟩
  | _ => cases hx

theorem Step.move {c d : Controller} {x : Action} {id : Nat} (h : Step c x d)
    (hx : x.run? = some id) (possible : ¬ c.Idle x) :
    ∃ r p stage, c.runs[id]? = some r ∧ r.stage = .active p ∧ c.Move id r p x stage d := by
  cases h with
  | idle x why => exact absurd why possible
  | moved id' r p stage run active move =>
    rw [move.run?_eq] at hx
    cases hx
    exact ⟨r, p, stage, run, active, move⟩
  | _ => cases hx

/-- An action leaves the hub alone, emits one notice about the server, or is about the listeners. -/
theorem Step.hub {c d : Controller} {x : Action} (h : Step c x d) :
    d.hub = c.hub ∨
    (∃ n : Notice, n.Complete ∧ n.kind.isSubscriberEvent = false ∧ d.hub = c.hub.emit n) ∨
    ∃ y, x = .listeners y ∧ d.hub = c.hub.stepListeners y := by
  cases h with
  | idle | finished => exact .inl rfl
  | reset | cancelled => exact .inl (by simp)
  | opened => exact .inr (.inl ⟨.suspendStarted, Notice.complete_of_plain rfl, rfl, rfl⟩)
  | registered a level p => exact .inr (.inl ⟨_, Notice.complete_registered a p, rfl, rfl⟩)
  | lateRegistered a level p => exact .inr (.inl ⟨_, Notice.complete_registered a p, rfl, rfl⟩)
  | unregistered a p => exact .inr (.inl ⟨_, Notice.complete_unregistered a p, rfl, rfl⟩)
  | resuming =>
    exact .inr (.inl ⟨.suspendCancelled, Notice.complete_of_plain rfl, rfl, by simp [emit]⟩)
  | listeners y => exact .inr (.inr ⟨y, rfl, rfl⟩)
  | moved id r p stage run active move =>
    cases move with
    | suspended => exact .inr (.inl ⟨.suspendComplete, Notice.complete_of_plain rfl, rfl, rfl⟩)
    | resumed => exact .inr (.inl ⟨.resumeComplete, Notice.complete_of_plain rfl, rfl, rfl⟩)
    | failed call b k ending e live barrier pending made ended error =>
      exact .inr (.inl ⟨_, Notice.complete_phaseFailed p.request.phase
        ⟨k.activity.name, b.priority, e⟩, by cases p.request.phase <;> rfl,
        by simp [fail, resolve, emit]⟩)
    | _ => exact .inl rfl

/-! ## The list is complete -/

theorem completePhase_eq_gaveUp {c : Controller} {id : Nat} {r : Run} {q : Request}
    (h : c.mayComplete id r q = false) :
    c.completePhase id r q = c.resolve id (.error .canceled) := by
  cases q <;> simp_all [mayComplete, completePhase]

theorem move_completePhase {c : Controller} {id : Nat} {r : Run} {p : PhaseRun}
    (barrier : p.barrier? = none) (ahead : p.ahead = []) :
    ∃ stage, c.Move id r p (.turn id) stage (c.completePhase id r p.request) := by
  by_cases may : c.mayComplete id r p.request = true
  · cases h : p.request with
    | prepare context =>
      have may' : c.mayAdvance id r .preSuspend = true := by simpa [h, mayComplete] using may
      exact ⟨_, by simpa [completePhase, may'] using .prepared context barrier ahead h may'⟩
    | suspend context =>
      have may' : c.mayAdvance id r .suspending = true := by simpa [h, mayComplete] using may
      exact ⟨_, by simpa [completePhase, may'] using .suspended context barrier ahead h may'⟩
    | resume context =>
      have may' : c.attempt.generation = r.generation := by simpa [h, mayComplete] using may
      exact ⟨_, by simpa [completePhase, may'] using .resumed context barrier ahead h may'⟩
  · have no : c.mayComplete id r p.request = false := by simpa using may
    rw [completePhase_eq_gaveUp no]
    exact ⟨_, .gaveUp (.inr ⟨barrier, ahead, no⟩)⟩

theorem step_turn {c d : Controller} {id : Nat} (h : c.turn? id = some d) : Step c (.turn id) d := by
  unfold turn? at h
  cases ha : c.activeRun? id with
  | none => simp [ha] at h
  | some rp =>
    obtain ⟨r, p⟩ := rp
    obtain ⟨run, active⟩ := activeRun?_eq_some.1 ha
    suffices hm : ∃ stage, c.Move id r p (.turn id) stage d by
      obtain ⟨stage, hm⟩ := hm
      exact .moved id r p stage run active hm
    simp only [ha, Option.bind_eq_bind, Option.bind_some, PhaseRun.next] at h
    cases hc : c.isCancelled (r.token id) with
    | true =>
      cases hb : p.barrier? with
      | some b =>
        simp [hc, hb] at h
        subst h
        exact ⟨_, .gaveUp (.inl hc)⟩
      | none =>
        cases hq : p.ahead with
        | nil =>
          simp [hb, hq] at h
          exact h ▸ move_completePhase hb hq
        | cons q rest =>
          simp [hc, hb, hq] at h
          subst h
          exact ⟨_, .gaveUp (.inl hc)⟩
    | false =>
      cases hb : p.barrier? with
      | some b =>
        by_cases hp : b.pending = []
        · simp [hc, hb, hp] at h
          subst h
          exact ⟨_, .passedBarrier b hc hb hp⟩
        · simp [hc, hb, hp] at h
      | none =>
        cases hq : p.ahead with
        | nil =>
          simp [hb, hq] at h
          exact h ▸ move_completePhase hb hq
        | cons q rest =>
          cases hm : c.registry.members q with
          | nil =>
            simp only [hc, hb, hq, hm, Option.some.injEq, Bool.false_eq_true, if_false] at h
            rw [← h, ← hb]
            exact ⟨_, .passedGroup q rest hc hb hq hm⟩
          | cons a as =>
            simp [hc, hb, hq, hm] at h
            rw [← h, ← hm]
            exact ⟨_, .launched q rest hc hb hq (by simp [hm])⟩

theorem step_collect {c d : Controller} {id call : Nat} (h : c.collect? id call = some d) :
    Step c (.collect id call) d := by
  unfold collect? at h
  cases ha : c.activeRun? id with
  | none => simp [ha] at h
  | some rp =>
    obtain ⟨r, p⟩ := rp
    obtain ⟨run, active⟩ := activeRun?_eq_some.1 ha
    cases hb : p.barrier? with
    | none => simp [ha, hb] at h
    | some b =>
      simp only [ha, hb, Option.bind_eq_bind, Option.bind_some] at h
      split at h
      · cases h
      · rename_i hno
        simp only [Bool.or_eq_true, Bool.not_eq_true', not_or, Bool.not_eq_true, Bool.not_eq_false,
          List.contains_iff_mem] at hno
        obtain ⟨live, pending⟩ := hno
        cases hk : c.calls[call]? with
        | none => simp [hk] at h
        | some k =>
          cases he : k.ending? with
          | none => simp [hk, he] at h
          | some ending =>
            cases hx : ending.error? with
            | none =>
              have ok : ending = .returned := by cases ending <;> simp_all [Ending.error?]
              simp [hk, he, hx] at h
              exact h ▸ .moved id r p _ run active (.succeeded call b k live hb pending hk (ok ▸ he))
            | some e =>
              simp [hk, he, hx] at h
              exact h ▸ .moved id r p _ run active (.failed call b k ending e live hb pending hk he hx)

theorem step_registerAt (c : Controller) (a : Activity) (level : Nat) :
    Step c (.register a level) (c.registerAt a level).1 := by
  unfold registerAt
  split
  · rename_i e invalid
    exact .idle _ (.inl ⟨e, invalid⟩)
  · rename_i p valid
    cases tracked : c.registry.priorityOf? a with
    | some q => simpa [register, tracked] using Step.idle (.register a level) (.inr ⟨q, tracked⟩)
    | none =>
      by_cases running : c.state = .running
      · simpa [register, tracked, running] using Step.registered a level p valid tracked running
      · simpa [register, tracked, running] using
          Step.lateRegistered a level p valid tracked running

/-- **Every action does one of the things on the list.** -/
theorem step_spec (c : Controller) (x : Action) : Step c x (c.step x) := by
  cases x with
  | suspend context =>
    by_cases running : c.state = .running
    · simpa [step, suspend, running] using Step.opened context running
    · simpa [step, suspend, running] using Step.idle (.suspend context) running
  | resume context =>
    by_cases running : c.state = .running
    · simpa [step, resume, running] using Step.idle (.resume context) running
    · simpa [step, resume, running] using Step.resuming context running
  | reset => simpa [step, Controller.reset] using Step.reset
  | cancel generation =>
    by_cases known : generation ≤ c.attempt.generation
    · simpa [step, cancelAttempt, known] using Step.cancelled generation known
    · simpa [step, cancelAttempt, known] using
        Step.idle (.cancel generation) (Nat.lt_of_not_le known)
  | register a level => exact step_registerAt c a level
  | unregister a =>
    cases tracked : c.registry.priorityOf? a with
    | none => simpa [step, unregister, tracked] using Step.idle (.unregister a) tracked
    | some p => simpa [step, unregister, tracked] using Step.unregistered a p tracked
  | turn id =>
    cases h : c.turn? id with
    | none => simpa [step, h] using Step.idle (.turn id) h
    | some d => simpa [step, h] using step_turn h
  | collect id call =>
    cases h : c.collect? id call with
    | none => simpa [step, h] using Step.idle (.collect id call) h
    | some d => simpa [step, h] using step_collect h
  | finish call e => exact .finished call e
  | listeners x => exact .listeners x

/-! ## The end of a call -/

theorem step_collect_eq {c : Controller} {id call : Nat} {r : Run} {p : PhaseRun} {b : Barrier}
    {k : Call} {ending : Ending} (run : c.runs[id]? = some r) (active : r.stage = .active p)
    (live : c.isCancelled (r.token id) = false) (barrier : p.barrier? = some b)
    (pending : call ∈ b.pending) (made : c.calls[call]? = some k) (ended : k.ending? = some ending) :
    c.step (.collect id call) = match ending.error? with
      | none => c.setStage id (.active (p.succeed call))
      | some e => c.fail id p.request.phase b.token ⟨k.activity.name, b.priority, e⟩ := by
  have unresolved := activeRun?_eq_some.2 ⟨run, active⟩
  cases error : ending.error? <;>
    simp [step, collect?, unresolved, barrier, live, pending, made, ended, error]

end Controller

end Quiesce
