import Quiesce.Proofs.History
/-!
# One live attempt

An attempt is *live* while its run is unresolved and its token is not cancelled. No single flag
makes it the only one. That there is at most one, that it is the current attempt, and that the state
tells the phase it is in, all follow from the invariant `Coherent`, of which every action keeps
every part:

- only a running server opens an attempt, and while it is running no attempt is live;
- a resume cancels the current attempt before it takes over its generation, so a resume run that
  still has the current generation finds the current attempt cancelled;
- a reset cancels the current attempt before it goes to the next generation.
-/

namespace Quiesce

/-- The purpose of a run that asks this. -/
def Request.purpose : Request → Purpose
  | prepare context | suspend context => .suspend context
  | resume context => .resume context

/-- The state that a live attempt is in while it asks for this. -/
def Request.state? : Request → Option State
  | prepare _ => some .preSuspend
  | suspend _ => some .suspending
  | resume _ => none

theorem Run.token_of_suspend {r : Run} {context : SuspendContext}
    (h : r.purpose = .suspend context) (id : Nat) : r.token id = .attempt r.generation := by
  simp [Run.token, h]

namespace Controller

variable {c d c₀ : Controller} {x : Action} {history : List Action} {id j : Nat} {r s : Run}
  {p q : PhaseRun} {stage : RunStage} {context : SuspendContext}

/-- An unresolved suspend run whose token is not cancelled, in its present phase. -/
structure Live (c : Controller) (id : Nat) (r : Run) (p : PhaseRun) : Prop where
  run : c.runs[id]? = some r
  active : r.stage = .active p
  suspend : ∃ context, r.purpose = .suspend context
  uncancelled : c.isCancelled (r.token id) = false

theorem live_iff (hr : c.runs[id]? = some r) (hs : r.purpose = .suspend context) :
    c.Live id r p ↔ r.stage = .active p ∧ Token.attempt r.generation ∉ c.cancelled := by
  have ht : c.isCancelled (r.token id) = false ↔ Token.attempt r.generation ∉ c.cancelled := by
    rw [Run.token_of_suspend hs, ← isCancelled_attempt, Bool.not_eq_true]
  exact ⟨fun h => ⟨h.active, ht.1 h.uncancelled⟩, fun h => ⟨hr, h.1, ⟨context, hs⟩, ht.2 h.2⟩⟩

theorem Live.not_mem (h : c.Live id r p) : Token.attempt r.generation ∉ c.cancelled := by
  obtain ⟨context, hs⟩ := h.suspend
  exact ((live_iff h.run hs).1 h).2

theorem Live.of_run (h : d.Live id r p) (run : c.runs[id]? = some r)
    (tokens : ∀ g, Token.attempt g ∈ c.cancelled → Token.attempt g ∈ d.cancelled) :
    c.Live id r p := by
  obtain ⟨context, hs⟩ := h.suspend
  exact (live_iff run hs).2 ⟨h.active, fun hu => h.not_mem (tokens _ hu)⟩

/-- The invariant of the attempts. -/
structure Coherent (c : Controller) : Prop where
  generation_le : ∀ {id : Nat} {r : Run}, c.runs[id]? = some r →
    r.generation ≤ c.attempt.generation
  cancelled_le : ∀ {g : Nat}, Token.attempt g ∈ c.cancelled → g ≤ c.attempt.generation
  asks : ∀ {id : Nat} {r : Run} {p : PhaseRun}, c.runs[id]? = some r → r.stage = .active p →
    r.purpose = p.request.purpose
  group : ∀ {id : Nat} {r : Run} {p : PhaseRun} {b : Barrier}, c.runs[id]? = some r →
    r.stage = .active p → p.barrier? = some b → ∃ i, b.token = .child (r.token id) i
  attempt : ∀ {id : Nat}, c.attempt.completion = .run id → ∃ r, c.runs[id]? = some r ∧
    r.purpose = .suspend c.attempt.context ∧ r.generation = c.attempt.generation
  resume : ∀ {id : Nat} {r : Run} {context : ResumeContext}, c.runs[id]? = some r →
    r.purpose = .resume context → r.generation = c.attempt.generation →
    Token.attempt c.attempt.generation ∈ c.cancelled
  live : ∀ {id : Nat} {r : Run} {p : PhaseRun}, c.Live id r p → c.attempt.completion = .run id ∧
    r.generation = c.attempt.generation ∧ p.request.state? = some c.state

/-- There is at most one live attempt. -/
theorem Coherent.live_unique (h : c.Coherent) (hi : c.Live id r p) (hj : c.Live j s q) : id = j := by
  have h1 := (h.live hi).1
  rw [(h.live hj).1] at h1
  cases h1
  rfl

theorem Coherent.not_live_of_running (h : c.Coherent) (running : c.state = .running) :
    ¬ c.Live id r p := by
  intro hl
  have hs := (h.live hl).2.2
  rw [running] at hs
  cases hq : p.request <;> simp [hq, Request.state?] at hs

/-- While a resume run of the current generation exists no attempt is live. -/
theorem Coherent.not_live_of_resume (h : c.Coherent) {context : ResumeContext}
    (hs : c.runs[j]? = some s) (hp : s.purpose = .resume context)
    (hg : c.attempt.generation = s.generation) : ¬ c.Live id r p := by
  intro hl
  apply hl.not_mem
  rw [(h.live hl).2.1]
  exact h.resume hs hp hg.symm

/-! ## Every action keeps the invariant -/

theorem coherent_of_new (new : c.New) : c.Coherent := by
  have hr := new.runs
  obtain ⟨config, listeners, rfl⟩ := new
  constructor <;> simp [create, Attempt.initial] at hr ⊢
  intro id r p hl
  exact absurd hl.run (by simp)

theorem Coherent.of_eq (h : c.Coherent) (state : d.state = c.state) (attempt : d.attempt = c.attempt)
    (runs : d.runs = c.runs) (cancelled : d.cancelled = c.cancelled) : d.Coherent where
  generation_le hr := by rw [attempt]; exact h.generation_le (runs ▸ hr)
  cancelled_le hg := by rw [attempt]; exact h.cancelled_le (cancelled ▸ hg)
  asks hr hp := h.asks (runs ▸ hr) hp
  group hr hp hb := h.group (runs ▸ hr) hp hb
  attempt hc := by rw [runs, attempt]; exact h.attempt (attempt ▸ hc)
  resume hr hp hg := by
    rw [attempt, cancelled]
    exact h.resume (runs ▸ hr) hp (attempt ▸ hg)
  live hl := by
    rw [attempt, state]
    exact h.live (hl.of_run (runs ▸ hl.run) fun g hg => cancelled ▸ hg)

/-- One unresolved run goes to a new stage and the attempt stays what it is. What remains to be
shown is that the new stage suits the run and the new state, and that the state stays what it is if
another attempt is live. -/
theorem Coherent.setStage (h : c.Coherent) {stage : RunStage} (run : c.runs[id]? = some r)
    (active : r.stage = .active p) (attempt : d.attempt = c.attempt)
    (runs : d.runs = (c.setStage id stage).runs)
    (tokens : ∀ g, Token.attempt g ∈ d.cancelled ↔ Token.attempt g ∈ c.cancelled)
    (asks : ∀ q, stage = .active q → r.purpose = q.request.purpose)
    (group : ∀ q b, stage = .active q → q.barrier? = some b → ∃ i, b.token = .child (r.token id) i)
    (self : ∀ q, stage = .active q → c.Live id r p → q.request.state? = some d.state)
    (others : ∀ j s q, j ≠ id → c.Live j s q → d.state = c.state) : d.Coherent where
  generation_le hs := by
    rw [attempt]
    rcases run_of_setStage run runs hs with ⟨rfl, rfl⟩ | ⟨-, hs⟩
    · show r.generation ≤ _
      exact h.generation_le run
    · exact h.generation_le hs
  cancelled_le hg := by rw [attempt]; exact h.cancelled_le ((tokens _).1 hg)
  asks hs hq := by
    rcases run_of_setStage run runs hs with ⟨rfl, rfl⟩ | ⟨-, hs⟩
    · exact asks _ hq
    · exact h.asks hs hq
  group hs hq hb := by
    rcases run_of_setStage run runs hs with ⟨rfl, rfl⟩ | ⟨-, hs⟩
    · exact group _ _ hq hb
    · exact h.group hs hq hb
  attempt hc := by
    rw [attempt] at hc ⊢
    obtain ⟨s, hs, hp, hg⟩ := h.attempt hc
    obtain ⟨t, ht, hst⟩ := runs_later_setStage run active stage hs
    exact ⟨t, runs ▸ ht, hst.purpose.trans hp, hst.generation.trans hg⟩
  resume hs hp hg := by
    rw [attempt] at hg ⊢
    rw [tokens]
    rcases run_of_setStage run runs hs with ⟨rfl, rfl⟩ | ⟨-, hs⟩
    · exact h.resume run hp hg
    · exact h.resume hs hp hg
  live {j s q} hl := by
    rw [attempt]
    rcases run_of_setStage run runs hl.run with ⟨rfl, rfl⟩ | ⟨hj, hs⟩
    · obtain ⟨context, hp⟩ := hl.suspend
      have hc : c.Live j r p :=
        (live_iff run hp).2 ⟨active, fun hu => hl.not_mem ((tokens _).2 hu)⟩
      exact ⟨(h.live hc).1, (h.live hc).2.1, self q hl.active hc⟩
    · have hc : c.Live j s q := hl.of_run hs fun g => (tokens g).2
      rw [others j s q hj hc]
      exact h.live hc

theorem Coherent.stay (h : c.Coherent) {q : PhaseRun} (run : c.runs[id]? = some r)
    (active : r.stage = .active p) (state : d.state = c.state) (attempt : d.attempt = c.attempt)
    (runs : d.runs = (c.setStage id (.active q)).runs) (cancelled : d.cancelled = c.cancelled)
    (request : q.request = p.request)
    (group : ∀ b, q.barrier? = some b → ∃ i, b.token = .child (r.token id) i) : d.Coherent := by
  refine h.setStage run active attempt runs (fun g => by rw [cancelled]) ?_ ?_ ?_ ?_
  · rintro _ ⟨rfl⟩
    rw [request]
    exact h.asks run active
  · rintro _ b ⟨rfl⟩ hb
    exact group b hb
  · rintro _ ⟨rfl⟩ hl
    rw [request, state]
    exact (h.live hl).2.2
  · intro j s q hj hl
    exact state

theorem Coherent.settle (h : c.Coherent) {o : Outcome} (run : c.runs[id]? = some r)
    (active : r.stage = .active p) (attempt : d.attempt = c.attempt)
    (runs : d.runs = (c.resolve id o).runs)
    (tokens : ∀ g, Token.attempt g ∈ d.cancelled ↔ Token.attempt g ∈ c.cancelled)
    (others : ∀ j s q, j ≠ id → c.Live j s q → d.state = c.state) : d.Coherent := by
  refine h.setStage run active attempt runs tokens ?_ ?_ ?_ others
  · rintro q ⟨⟩
  · rintro q b ⟨⟩
  · rintro q ⟨⟩

theorem Coherent.purpose_eq (h : c.Coherent) {request : Request} (run : c.runs[id]? = some r)
    (active : r.stage = .active p) (asks : p.request = request) : r.purpose = request.purpose := by
  rw [h.asks run active, asks]

theorem live_of_mayAdvance {state : State} (run : c.runs[id]? = some r)
    (active : r.stage = .active p) (suspend : r.purpose = .suspend context)
    (may : c.mayAdvance id r state = true) : c.Live id r p :=
  ⟨run, active, ⟨context, suspend⟩, (mayAdvance_iff.1 may).2.1⟩

theorem Coherent.asks_start (h : c.Coherent) {purpose : Purpose} {g : Nat}
    (runs : d.runs = c.runs ++ [Run.start purpose g]) (hs : d.runs[j]? = some s)
    (hq : s.stage = .active q) : s.purpose = q.request.purpose := by
  rcases run_of_append runs hs with ⟨rfl, rfl⟩ | hs
  · cases hq
    cases purpose <;> rfl
  · exact h.asks hs hq

theorem Coherent.group_start (h : c.Coherent) {purpose : Purpose} {g : Nat} {b : Barrier}
    (runs : d.runs = c.runs ++ [Run.start purpose g]) (hs : d.runs[j]? = some s)
    (hq : s.stage = .active q) (hb : q.barrier? = some b) :
    ∃ i, b.token = .child (s.token j) i := by
  rcases run_of_append runs hs with ⟨rfl, rfl⟩ | hs
  · cases hq
    cases hb
  · exact h.group hs hq hb

/-- The new attempt is live, and no other one is, since the server was running. -/
theorem Coherent.open (h : c.Coherent) (running : c.state = .running)
    (state : d.state = .preSuspend)
    (attempt : d.attempt = ⟨c.attempt.generation + 1, .run c.runs.length, context⟩)
    (runs : d.runs = c.runs ++ [Run.start (.suspend context) (c.attempt.generation + 1)])
    (cancelled : d.cancelled = c.cancelled) : d.Coherent where
  generation_le hs := by
    rw [attempt]
    rcases run_of_append runs hs with ⟨rfl, rfl⟩ | hs
    · exact Nat.le_refl _
    · exact Nat.le_succ_of_le (h.generation_le hs)
  cancelled_le hg := by
    rw [attempt]
    exact Nat.le_succ_of_le (h.cancelled_le (cancelled ▸ hg))
  asks := h.asks_start runs
  group := h.group_start runs
  attempt hc := by
    rw [attempt] at hc ⊢
    cases hc
    exact ⟨_, by rw [runs, List.getElem?_concat_length], rfl, rfl⟩
  resume hs hp hg := by
    rw [attempt] at hg
    rcases run_of_append runs hs with ⟨rfl, rfl⟩ | hs
    · cases hp
    · have := h.generation_le hs
      simp only at hg
      omega
  live {j s q} hl := by
    rcases run_of_append runs hl.run with ⟨rfl, rfl⟩ | hs
    · have hq := hl.active
      cases hq
      rw [attempt, state]
      exact ⟨rfl, rfl, rfl⟩
    · have hc : c.Live j s q := hl.of_run hs fun g hg => cancelled ▸ hg
      exact absurd hc (h.not_live_of_running running)

theorem Coherent.not_live_of_cancelled (h : c.Coherent)
    (tokens : ∀ g, Token.attempt g ∈ d.cancelled ↔ g = c.attempt.generation ∨
      Token.attempt g ∈ c.cancelled)
    (old : ∀ {context'}, s.purpose = .suspend context' → d.runs[j]? = some s →
      c.runs[j]? = some s) : ¬ d.Live j s q := by
  intro hl
  obtain ⟨context', hp⟩ := hl.suspend
  have hc : c.Live j s q := hl.of_run (old hp hl.run) fun g hg => (tokens g).2 (.inr hg)
  have current := (h.live hc).2.1
  exact hl.not_mem ((tokens _).2 (.inl current))

theorem Coherent.startResume (h : c.Coherent) {context : ResumeContext}
    (attempt : d.attempt = c.attempt)
    (runs : d.runs = c.runs ++ [Run.start (.resume context) c.attempt.generation])
    (tokens : ∀ g, Token.attempt g ∈ d.cancelled ↔ g = c.attempt.generation ∨
      Token.attempt g ∈ c.cancelled) : d.Coherent where
  generation_le hs := by
    rw [attempt]
    rcases run_of_append runs hs with ⟨rfl, rfl⟩ | hs
    · exact Nat.le_refl _
    · exact h.generation_le hs
  cancelled_le hg := by
    rw [attempt]
    rcases (tokens _).1 hg with rfl | hg
    · exact Nat.le_refl _
    · exact h.cancelled_le hg
  asks := h.asks_start runs
  group := h.group_start runs
  attempt hc := by
    rw [attempt] at hc ⊢
    obtain ⟨s, hs, hp, hg⟩ := h.attempt hc
    exact ⟨s, getElem?_of_prefix (runs ▸ List.prefix_append _ _) hs, hp, hg⟩
  resume _ _ _ := by
    rw [attempt, tokens]
    exact .inl rfl
  live {j s q} hl := by
    refine absurd hl (h.not_live_of_cancelled tokens fun hp hs => ?_)
    rcases run_of_append runs hs with ⟨rfl, rfl⟩ | hs
    · cases hp
    · exact hs

theorem Coherent.reset (h : c.Coherent)
    (attempt : d.attempt = .initial (c.attempt.generation + 1)) (runs : d.runs = c.runs)
    (tokens : ∀ g, Token.attempt g ∈ d.cancelled ↔ g = c.attempt.generation ∨
      Token.attempt g ∈ c.cancelled) : d.Coherent where
  generation_le hs := by
    rw [attempt]
    exact Nat.le_succ_of_le (h.generation_le (runs ▸ hs))
  cancelled_le hg := by
    rw [attempt]
    rcases (tokens _).1 hg with rfl | hg
    · exact Nat.le_succ _
    · exact Nat.le_succ_of_le (h.cancelled_le hg)
  asks hs hq := h.asks (runs ▸ hs) hq
  group hs hq hb := h.group (runs ▸ hs) hq hb
  attempt hc := by
    rw [attempt] at hc
    cases hc
  resume hs hp hg := by
    have := h.generation_le (runs ▸ hs)
    rw [attempt] at hg
    simp only [Attempt.initial] at hg
    omega
  live hl := absurd hl (h.not_live_of_cancelled tokens fun _ hs => runs ▸ hs)

theorem Coherent.cancel (h : c.Coherent) {g : Nat} (known : g ≤ c.attempt.generation) :
    (c.cancelToken (.attempt g)).Coherent where
  generation_le hs := by
    rw [cancelToken_attempt]
    exact h.generation_le (cancelToken_runs c _ ▸ hs)
  cancelled_le hg := by
    rw [cancelToken_attempt]
    rcases (mem_cancelled_cancelToken c _).1 hg with hg | hg
    · rw [Token.attempt.inj hg]
      exact known
    · exact h.cancelled_le hg
  asks hs hq := h.asks (cancelToken_runs c _ ▸ hs) hq
  group hs hq hb := h.group (cancelToken_runs c _ ▸ hs) hq hb
  attempt hc := by
    rw [cancelToken_attempt] at hc ⊢
    rw [cancelToken_runs]
    exact h.attempt hc
  resume hs hp hg := by
    rw [cancelToken_attempt] at hg ⊢
    exact (mem_cancelled_cancelToken c _).2 (.inr (h.resume (cancelToken_runs c _ ▸ hs) hp hg))
  live hl := by
    rw [cancelToken_attempt, cancelToken_state]
    exact h.live (hl.of_run (cancelToken_runs c _ ▸ hl.run) fun _ hg =>
      (mem_cancelled_cancelToken c _).2 (.inr hg))

theorem Move.coherent (move : c.Move id r p x stage d) (run : c.runs[id]? = some r)
    (active : r.stage = .active p) (h : c.Coherent) : d.Coherent := by
  cases move with
  | gaveUp why => exact h.settle run active rfl rfl (fun _ => .rfl) (fun _ _ _ _ _ => rfl)
  | passedBarrier b live barrier done =>
    exact h.stay run active rfl rfl rfl rfl rfl (by simp)
  | passedGroup q rest live barrier ahead empty =>
    exact h.stay run active rfl rfl rfl rfl rfl (by simp [barrier])
  | launched q rest live barrier ahead inhabited =>
    exact h.stay run active rfl rfl rfl rfl rfl (by simp [PhaseRun.await])
  | prepared context barrier ahead request may =>
    have hp : r.purpose = .suspend context := h.purpose_eq run active request
    have hl := live_of_mayAdvance run active hp may
    refine h.setStage run active rfl rfl (fun _ => .rfl) ?_ ?_ ?_ ?_
    · rintro _ ⟨rfl⟩
      exact hp
    · rintro _ b ⟨rfl⟩ hb
      cases hb
    · rintro _ ⟨rfl⟩ -
      rfl
    · intro j s q hj hl'
      exact absurd (h.live_unique hl' hl) hj
  | suspended context barrier ahead request may =>
    have hp : r.purpose = .suspend context := h.purpose_eq run active request
    have hl := live_of_mayAdvance run active hp may
    exact h.settle run active rfl rfl (fun _ => .rfl) fun j s q hj hl' =>
      absurd (h.live_unique hl' hl) hj
  | resumed context barrier ahead request current =>
    have hp : r.purpose = .resume context := h.purpose_eq run active request
    exact h.settle run active rfl rfl (fun _ => .rfl) fun j s q _ hl' =>
      absurd hl' (h.not_live_of_resume run hp current)
  | succeeded call b k live barrier pending made ending =>
    refine h.stay run active rfl rfl rfl rfl rfl ?_
    intro b' hb'
    simp only [PhaseRun.succeed, barrier, Option.map_some, Option.some.injEq] at hb'
    obtain ⟨i, hi⟩ := h.group run active barrier
    exact ⟨i, hb' ▸ hi⟩
  | failed call b k ending e live barrier pending made ended error =>
    obtain ⟨i, hi⟩ := h.group run active barrier
    exact h.settle run active (by simp [fail, resolve]) (by simp [fail, resolve, setStage]; rfl)
      (fun g => by simp [fail, resolve, hi]) (fun _ _ _ _ _ => by simp [fail, resolve])

theorem Step.coherent (hs : Step c x d) (h : c.Coherent) : d.Coherent := by
  cases hs with
  | idle x why => exact h
  | opened context running => exact h.open running rfl rfl rfl rfl
  | resuming context notRunning => exact h.startResume (by simp) rfl (by simp)
  | reset => exact h.reset (by simp) (by simp) (by simp)
  | cancelled g known => exact h.cancel known
  | registered | lateRegistered | unregistered | finished | listeners => exact h.of_eq rfl rfl rfl rfl
  | moved id r p stage run active move => exact move.coherent run active h

theorem Coherent.after (h : c.Coherent) (history : List Action) : (c.after history).Coherent :=
  after_induction h (fun hs h => hs.coherent h) history

/-- **The invariant holds after every history of a new controller.** -/
theorem coherent_after (new : c₀.New) (history : List Action) : (c₀.after history).Coherent :=
  (coherent_of_new new).after history

/-! ## What follows for callers -/

/-- A suspend run whose generation is current and whose token is not cancelled finds the state that
its phase expects. -/
theorem Coherent.state_of_checks (h : c.Coherent) {state : State} (run : c.runs[id]? = some r)
    (active : r.stage = .active p) (request : p.request.state? = some state)
    (uncancelled : c.isCancelled (r.token id) = false) : c.state = state := by
  have suspend : ∃ context, r.purpose = .suspend context := by
    cases hq : p.request with
    | prepare context => exact ⟨context, h.purpose_eq run active hq⟩
    | suspend context => exact ⟨context, h.purpose_eq run active hq⟩
    | resume context => rw [hq] at request; cases request
  have hs := (h.live ⟨run, active, suspend, uncancelled⟩).2.2
  rw [request] at hs
  exact (Option.some.inj hs).symm

/-- A live attempt that is through with all groups may carry out what follows. -/
theorem Coherent.mayComplete (h : c.Coherent) (live : c.Live id r p) :
    c.mayComplete id r p.request = true := by
  obtain ⟨-, current, state⟩ := h.live live
  cases hq : p.request with
  | prepare context | suspend context =>
    rw [hq] at state
    exact mayAdvance_iff.2 ⟨current.symm, live.uncancelled, (Option.some.inj state).symm⟩
  | resume context => exact decide_eq_true current.symm

theorem Coherent.attempt_over (h : c.Coherent) (running : c.state = .running) :
    (c.outcome? c.attempt.completion).isSome = true ∨
      c.isCancelled (.attempt c.attempt.generation) = true := by
  cases hc : c.attempt.completion with
  | ready => exact .inl rfl
  | run id =>
    obtain ⟨r, hr, hp, hg⟩ := h.attempt hc
    cases hs : r.stage with
    | resolved o => exact .inl (by simp [outcome?, hr, Run.outcome?, hs])
    | active p =>
      rw [isCancelled_attempt, ← hg]
      by_contra hu
      refine h.not_live_of_running running ((live_iff hr hp).2 ⟨hs, ?_⟩)
      simpa [Run.outcome?, outcome?, hr, hs] using hu

/-- **At most one attempt is live, and it agrees with the state.** After every history a live
attempt is the one that callers are given, has the current generation, and its phase and the state
tell the same; an unresolved attempt that was superseded is cancelled; while the server is running
the current attempt is over. So an attempt that passes the checks of its generation and its token
never finds a state that it does not expect. -/
theorem one_live_attempt (config : Config) (listeners : List Listener) (history : List Action) :
    let c₀ := create config listeners
    let c := c₀.after history
    (∀ id r p, c.Live id r p → c.attempt.completion = .run id ∧
      r.generation = c.attempt.generation ∧
      ((∃ context, p.request = .prepare context ∧ c.state = .preSuspend) ∨
        ∃ context, p.request = .suspend context ∧ c.state = .suspending)) ∧
    (∀ id r p j s q, c.Live id r p → c.Live j s q → id = j) ∧
    (∀ id r p context, c.runs[id]? = some r → r.purpose = .suspend context → r.stage = .active p →
      c₀.Superseded history id → c.isCancelled (r.token id) = true) ∧
    (c.state = .running → (c.outcome? c.attempt.completion).isSome = true ∨
      c.isCancelled (.attempt c.attempt.generation) = true) ∧
    (∀ id r p state, c.activeRun? id = some (r, p) → p.request.state? = some state →
      c.attempt.generation = r.generation → c.isCancelled (r.token id) = false →
      c.state = state) := by
  intro c₀ c
  have new : c₀.New := new_create config listeners
  have h : c.Coherent := coherent_after new history
  refine ⟨?_, ?_, ?_, h.attempt_over, ?_⟩
  · intro id r p hl
    obtain ⟨h1, h2, h3⟩ := h.live hl
    refine ⟨h1, h2, ?_⟩
    cases hq : p.request with
    | prepare context => simp_all [Request.state?]
    | suspend context => simp_all [Request.state?]
    | resume context => simp [hq, Request.state?] at h3
  · intro id r p j s q hi hj
    exact h.live_unique hi hj
  · intro id r p context hr hp hs hsup
    by_contra hu
    have hl : c.Live id r p := ⟨hr, hs, ⟨context, hp⟩, by simpa using hu⟩
    have hlt : r.generation < c.attempt.generation := (superseded_iff new hr).1 hsup
    have heq := (h.live hl).2.1
    omega
  · intro id r p state ha hq _ hu
    obtain ⟨hr, hs⟩ := activeRun?_eq_some.1 ha
    exact h.state_of_checks hr hs hq hu

/-- An attempt in its suspend phase. -/
theorem one_live_attempt_suspending :
    let c := (create { requestedState := .running } []).after
      (.suspend {} :: List.replicate 11 (.turn 0))
    ∃ r p, c.Live 0 r p ∧ c.state = .suspending ∧ c.attempt.completion = .run 0 := by
  intro c
  have run : c.runs[0]? = some ⟨.suspend {}, 1, .active (.start (.suspend {}))⟩ := by decide
  have live : c.Live 0 _ _ := ⟨run, rfl, ⟨_, rfl⟩, by decide⟩
  exact ⟨_, _, live, by decide, ((one_live_attempt _ _ _).1 0 _ _ live).1⟩

end Controller

end Quiesce
