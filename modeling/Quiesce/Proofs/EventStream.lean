import Quiesce.Proofs.AttemptOutcome
import Quiesce.Proofs.Marks
/-!
# The event stream tells the state

Whoever sees the marks knows whether the server is running and whether it is suspended
(`events_tell_state`), though no mark carries the state. What an action tells and what it does to
the state go together, whichever runs are under way and however old they are: `Tells` lists the
ways, and is an automaton that the latest mark and the state run through together
(`latest_induction`). That an attempt does not tell its end twice is due to its being live when it
tells it (`live_of_told`).
-/

namespace Quiesce

/-- The kinds that tell of the state. -/
def EventKind.ofState : List EventKind := [suspendStarted, suspendComplete, resumeComplete]

/-- The kinds that tell how an attempt ended. -/
def EventKind.ofAttempt : List EventKind := [suspendComplete, suspendFailed]

/-- What an action tells of the state, and what it does to it. -/
inductive Tells : List Mark → State → State → Prop
  | silent (s : State) : Tells [] s s
  /-- The second phase of an attempt begins unannounced. -/
  | prepared : Tells [] .preSuspend .suspending
  | opened : Tells [.event .suspendStarted] .running .preSuspend
  | suspended : Tells [.event .suspendComplete] .suspending .suspended
  | resumed (s : State) : Tells [.event .resumeComplete] s .running
  | reset (s : State) : Tells [.reset] s .suspended

theorem Run.report?_mem {r : Run} {kind : EventKind} {context : SuspendContext}
    (suspend : r.purpose = .suspend context) (report : r.report? = some kind) :
    kind ∈ EventKind.ofAttempt := by
  simp only [report?, suspend] at report
  split at report <;> simp_all [EventKind.ofAttempt]

theorem Run.suspend_of_report? {r : Run} {kind : EventKind} (report : r.report? = some kind)
    (ofAttempt : kind ∈ EventKind.ofAttempt) :
    ∃ context o, r.purpose = .suspend context ∧ r.stage = .resolved o ∧ o ≠ .error .canceled := by
  cases stage : r.stage with
  | active p =>
    rw [report?_of_active stage] at report
    cases report
  | resolved o =>
    cases purpose : r.purpose with
    | suspend context =>
      refine ⟨context, o, rfl, rfl, ?_⟩
      rintro rfl
      simp [report?, purpose, stage] at report
    | resume context =>
      have other : kind ∈ [EventKind.resumeComplete, .resumeFailed] := by
        rcases o with _ | e
        · simp_all [report?]
        · cases e <;> simp_all [report?]
      cases kind <;> simp [EventKind.ofAttempt] at other ofAttempt

namespace Controller

variable {c d c₀ : Controller} {x : Action} {history : List Action} {id : Nat} {r s : Run}
  {p q : PhaseRun} {kind : EventKind} {kinds : List EventKind} {m : Mark}

/-! ## One action -/

theorem tells_of_told {told : List EventKind} (h : c.told d = told)
    (tells : Tells (Mark.ofAction EventKind.ofState x told) c.state d.state) :
    Tells (Mark.ofAction EventKind.ofState x (c.told d)) c.state d.state := by
  rw [h]
  exact tells

/-- Every action tells what it does to the state. -/
theorem Step.tells (hs : Step c x d) :
    Tells (Mark.ofAction EventKind.ofState x (c.told d)) c.state d.state := by
  cases hs with
  | idle x why =>
    refine tells_of_told (told_of_hub rfl) ?_
    cases x with
    | reset => cases why
    | _ => exact .silent _
  | opened context running =>
    refine tells_of_told (told_emit rfl rfl) ?_
    rw [running]
    exact .opened
  | resuming context notRunning =>
    refine tells_of_told (told_emit (by simp) rfl) ?_
    simp only [emit_state, cancelToken_state]
    exact .silent _
  | reset => exact tells_of_told (told_of_hub (by simp)) (.reset _)
  | cancelled generation known =>
    refine tells_of_told (told_of_hub (by simp)) ?_
    simp only [cancelToken_state]
    exact .silent _
  | registered | lateRegistered | unregistered =>
    exact tells_of_told (told_emit rfl rfl) (.silent _)
  | finished => exact tells_of_told (told_of_hub rfl) (.silent _)
  | listeners y => exact tells_of_told (told_listeners c y) (.silent _)
  | moved id r p stage run active move =>
    cases move with
    | prepared context barrier ahead request may =>
      refine tells_of_told (told_of_hub rfl) ?_
      rw [(mayAdvance_iff.1 may).2.2]
      exact .prepared
    | suspended context barrier ahead request may =>
      refine tells_of_told (told_emit rfl rfl) ?_
      rw [(mayAdvance_iff.1 may).2.2]
      exact .suspended
    | resumed context barrier ahead request current =>
      exact tells_of_told (told_emit rfl rfl) (.resumed _)
    | failed call b k ending e live barrier pending made ended error =>
      -- A failure is told, but it leaves the state alone.
      refine tells_of_told (told_emit (by simp [resolve]) (by cases p.request.phase <;> rfl)) ?_
      simp only [fail, resolve, emit_state, setStage_state, cancelToken_state]
      cases p.request.phase <;> exact .silent _
    | _ => exact tells_of_told (told_of_hub rfl) (.silent _)

theorem running_of_told (told : .suspendStarted ∈ c.told (c.step x)) : c.state = .running := by
  have tells := (step_spec c x).tells
  have member :
      Mark.event .suspendStarted ∈ Mark.ofAction EventKind.ofState x (c.told (c.step x)) := by
    refine List.mem_append_right _ (List.mem_map_of_mem ?_)
    exact List.mem_filter.2 ⟨told, by decide⟩
  generalize Mark.ofAction EventKind.ofState x (c.told (c.step x)) = ms at tells member
  generalize c.state = s, (c.step x).state = s' at tells
  cases tells <;> simp at member ⊢

/-- Only a live attempt tells how it ended, and it is not live any more then. -/
theorem live_of_told (h : c.Coherent) (ofAttempt : kind ∈ EventKind.ofAttempt)
    (told : kind ∈ c.told (c.step x)) :
    ∃ id r p o, x.run? = some id ∧ c.Live id r p ∧ c.Resolves x id o := by
  have hs := step_spec c x
  cases own : x.run? with
  | none =>
    rcases hs.told_of_request own with silent | ⟨kind', told', request⟩
    · rw [silent] at told
      cases told
    · rw [told', List.mem_singleton] at told
      subst told
      cases kind <;> simp [EventKind.ofAttempt] at ofAttempt request
  | some id =>
    rcases hs.of_run? own with same | ⟨r, p, stage, run, active, move⟩
    · rw [same, told_of_hub rfl] at told
      cases told
    · rw [move.told h run active, Option.mem_toList] at told
      obtain ⟨context, o, suspend, resolved, ne⟩ := Run.suspend_of_report? told ofAttempt
      cases resolved
      refine ⟨id, r, p, o, rfl, ?_, move.resolves run active⟩
      cases o with
      | ok =>
        obtain ⟨-, -, live, -⟩ := move.suspended_of_ok h run active suspend
        exact live
      | error e =>
        exact (move.state_of_error h run active suspend fun canceled => ne (canceled ▸ rfl)).1

/-! ## The latest mark -/

/-- What holds of the creation and the first state, and is kept by every way of telling, holds of
the latest mark and the state. -/
theorem latest_induction {P : Mark → State → Prop} (ofState : kinds ⊆ EventKind.ofState)
    (start : P .created c₀.state)
    (step : ∀ {ms m s s'}, Tells ms s s' → P m s →
      P ((ms.filter (Mark.isAmong kinds)).getLastD m) s')
    (history : List Action) :
    P (Mark.latest kinds (c₀.marks history)) (c₀.after history).state := by
  induction history using List.reverseRecOn with
  | nil => exact start
  | append_singleton h x ih =>
    rw [after_concat, marks_concat, Mark.latest_append, ← Mark.filter_isAmong ofState,
      filter_marksOf (by decide)]
    exact step (step_spec (c₀.after h) x).tells ih

theorem running_iff_latest (c₀ : Controller) (history : List Action) :
    let latest := Mark.latest [.suspendStarted, .resumeComplete] (c₀.marks history)
    (c₀.after history).state = .running ↔
      latest = .event .resumeComplete ∨ latest = .created ∧ c₀.state = .running := by
  refine latest_induction (P := fun m s => s = .running ↔
    m = .event .resumeComplete ∨ m = .created ∧ c₀.state = .running)
    (by simp [EventKind.ofState]) (by simp) ?_ history
  intro ms m s s' tells ih
  cases tells with
  | silent => exact ih
  | prepared | suspended => simpa [Mark.isAmong] using ih
  | opened | resumed | reset => simp [Mark.isAmong]

theorem suspended_iff_latest (c₀ : Controller) (history : List Action) :
    let latest := Mark.latest EventKind.ofState (c₀.marks history)
    (c₀.after history).state = .suspended ↔ latest = .event .suspendComplete ∨ latest = .reset ∨
      latest = .created ∧ c₀.state = .suspended := by
  refine latest_induction (P := fun m s => s = .suspended ↔ m = .event .suspendComplete ∨
    m = .reset ∨ m = .created ∧ c₀.state = .suspended) (List.Subset.refl _) (by simp) ?_ history
  intro ms m s s' tells ih
  cases tells with
  | silent => exact ih
  | prepared => simpa using ih
  | opened | suspended | resumed | reset => simp [Mark.isAmong, EventKind.ofState]

theorem told_suspend {context : SuspendContext} (running : c.state = .running) :
    c.told (c.step (.suspend context)) = [.suspendStarted] := by
  have opens := step_spec c (.suspend context)
  generalize c.step (.suspend context) = d at opens
  cases opens with
  | idle x why => exact absurd running why
  | opened context running => exact told_emit rfl rfl
  | moved id r p stage run active move => cases move.run?_eq

/-- While an attempt stays live, no attempt ends and there is no reset. -/
theorem Live.mark_eq_started (live : c.Live id r p) (h : c.Coherent) (goesOn : (c.step x).Live id s q)
    (member : m ∈ (c.marksOf x).filter (Mark.isAmong (.suspendStarted :: EventKind.ofAttempt))) :
    m = .event .suspendStarted := by
  have ne : x ≠ .reset := by
    rintro rfl
    have attempt := (((step_spec c .reset).coherent h).live goesOn).1
    cases attempt
  rw [filter_marksOf (by decide), Mark.ofAction, if_neg ne, List.nil_append, List.mem_map] at member
  obtain ⟨kind, told, rfl⟩ := member
  obtain ⟨told, among⟩ := List.mem_filter.1 told
  rcases List.mem_cons.1 (List.contains_iff_mem.1 among) with rfl | ofAttempt
  · rfl
  · -- The attempt that ends is the one that is live.
    obtain ⟨j, t, q', o, -, other, -, resolved⟩ := live_of_told h ofAttempt told
    rw [h.live_unique other live, outcome?_run goesOn.run, Run.outcome?, goesOn.active] at resolved
    cases resolved

theorem latest_of_live (new : c₀.New) (live : (c₀.after history).Live id r p) :
    Mark.latest (.suspendStarted :: EventKind.ofAttempt) (c₀.marks history) =
      .event .suspendStarted := by
  induction history using List.reverseRecOn generalizing r p with
  | nil => exact absurd live.run (by simp [new.runs])
  | append_singleton h x ih =>
    rw [after_concat] at live
    rw [marks_concat, Mark.latest_append]
    have hs := step_spec (c₀.after h) x
    by_cases old : id < (c₀.after h).runs.length
    · obtain ⟨s, run, -⟩ := hs.later.run_of_lt live.run old
      obtain ⟨q, before⟩ := live.before hs.later run
      rw [ih before]
      refine (List.mem_cons.1 List.getLastD_mem_cons).elim (fun same => same) fun member => ?_
      exact before.mark_eq_started (coherent_after new h) live member
    · obtain ⟨-, starts⟩ := hs.newRun live.run (Nat.le_of_not_lt old)
      obtain ⟨context', suspend⟩ := live.suspend
      cases starts with
      | suspend context running =>
        rw [filter_marksOf (by decide), told_suspend running]
        rfl
      | resume context notRunning => cases suspend

/-! ## Between two events -/

/-- Between two beginnings of attempts the server was resumed. -/
theorem resumed_between (new : c₀.New) {xs ys zs : List EventKind}
    (split : (c₀.after history).hub.journal.toList.map (·.kind) =
      xs ++ .suspendStarted :: ys ++ .suspendStarted :: zs) : .resumeComplete ∈ ys := by
  obtain ⟨before, x, rest, rfl, told, since, latest⟩ := latest_between new
    [.suspendStarted, .resumeComplete] (by decide) (by decide) (by decide) split
  rcases (running_iff_latest c₀ before).1 (running_of_told told) with resumed | ⟨created, -⟩
  · exact (latest _ resumed).resolve_left (by decide)
  · exact absurd created since

/-- Between two ends of attempts an attempt began. -/
theorem started_between (new : c₀.New) {k k' : EventKind} (first : k ∈ EventKind.ofAttempt)
    (second : k' ∈ EventKind.ofAttempt) {xs ys zs : List EventKind}
    (split : (c₀.after history).hub.journal.toList.map (·.kind) = xs ++ k :: ys ++ k' :: zs) :
    .suspendStarted ∈ ys := by
  obtain ⟨before, x, rest, rfl, told, -, latest⟩ := latest_between new
    (.suspendStarted :: EventKind.ofAttempt) (by decide) (List.mem_cons_of_mem _ first)
    (List.mem_cons_of_mem _ second) split
  obtain ⟨id, r, p, o, -, live, -⟩ := live_of_told (coherent_after new before) second told
  refine (latest _ (latest_of_live new live)).resolve_left ?_
  rintro rfl
  simp [EventKind.ofAttempt] at first

/-! ## What an attempt tells -/

theorem exists_told {later : List Action} (member : kind ∈ c.reports id later) :
    ∃ before x rest, later = before ++ x :: rest ∧ x.run? = some id ∧
      kind ∈ (c.after before).told ((c.after before).step x) := by
  induction later generalizing c with
  | nil => cases member
  | cons x later ih =>
    rcases List.mem_append.1 member with now | after
    · by_cases own : x.run? = some id
      · rw [if_pos own] at now
        exact ⟨[], x, later, rfl, own, now⟩
      · rw [if_neg own] at now
        cases now
    · obtain ⟨before, y, rest, rfl, own, told⟩ := ih after
      exact ⟨x :: before, y, rest, rfl, own, told⟩

/-- An attempt tells at most once how it ended. -/
theorem reports_of_suspend (new : c₀.New) {context : SuspendContext}
    (run : (c₀.after history).runs[id]? = some r) (suspend : r.purpose = .suspend context) :
    c₀.reports id history = [] ∨ ∃ kind ∈ EventKind.ofAttempt, c₀.reports id history = [kind] := by
  rw [reports_eq new, run, Option.bind_some]
  cases report : r.report? with
  | none => exact .inl rfl
  | some kind => exact .inr ⟨kind, Run.report?_mem suspend report, rfl⟩

/-- Once another attempt has begun, an attempt tells nothing any more. -/
theorem reports_after_opening (new : c₀.New) {context : SuspendContext} {before rest : List Action}
    (run : (c₀.after (before ++ x :: rest)).runs[id]? = some r)
    (suspend : r.purpose = .suspend context) (old : id < (c₀.after before).runs.length)
    (opening : .suspendStarted ∈ (c₀.after before).told ((c₀.after before).step x)) :
    (c₀.after before).reports id (x :: rest) = [] := by
  rw [List.eq_nil_iff_forall_not_mem]
  intro kind member
  have ofAttempt : kind ∈ EventKind.ofAttempt := by
    have whole : kind ∈ c₀.reports id (before ++ x :: rest) := by
      rw [reports_append]
      exact List.mem_append_right _ member
    rcases reports_of_suspend new run suspend with silent | ⟨kind', among, told⟩
    · rw [silent] at whole
      cases whole
    · rw [told, List.mem_singleton] at whole
      exact whole ▸ among
  obtain ⟨mid, y, post, -, own, told⟩ := exists_told member
  have coherent : ((c₀.after before).after mid).Coherent := (coherent_after new before).after mid
  -- The attempt that tells has been live since before the opening, when the server was running.
  obtain ⟨j, s, p, o, own', live, -⟩ := live_of_told coherent ofAttempt told
  rw [own] at own'
  cases own'
  obtain ⟨q, live'⟩ :=
    live.before (later_after (c₀.after before) mid) (List.getElem?_eq_getElem old)
  exact (coherent_after new before).not_live_of_running (running_of_told opening) live'

/-! ## The law -/

/-- **The event stream tells the state.** The events among the marks are those of the journal. The
server is running exactly if the latest among the creation, the beginnings of attempts, the
successful resumes and the resets is such a resume, or the creation of a server that is to run; it
is suspended exactly if the latest among these and the successful suspends is such a suspend, a
reset, or the creation of a server that is not to run. Between two beginnings of attempts lies a
successful resume, and between two ends of attempts a beginning. Each attempt tells at most once how
it ended, and only before the next attempt begins. -/
theorem events_tell_state (config : Config) (listeners : List Listener) (history : List Action) :
    let c₀ := create config listeners
    let c := c₀.after history
    let kinds := c.hub.journal.toList.map (·.kind)
    let latest := Mark.latest [.suspendStarted, .resumeComplete] (c₀.marks history)
    let latest' :=
      Mark.latest [.suspendStarted, .suspendComplete, .resumeComplete] (c₀.marks history)
    (c₀.marks history).filterMap Mark.kind? = kinds ∧
    (c.state = .running ↔
      latest = .event .resumeComplete ∨ latest = .created ∧ config.requestedState = .running) ∧
    (c.state = .suspended ↔ latest' = .event .suspendComplete ∨ latest' = .reset ∨
      latest' = .created ∧ config.requestedState ≠ .running) ∧
    (∀ xs ys zs, kinds = xs ++ .suspendStarted :: ys ++ .suspendStarted :: zs →
      .resumeComplete ∈ ys) ∧
    (∀ xs ys zs k k', k ∈ EventKind.ofAttempt → k' ∈ EventKind.ofAttempt →
      kinds = xs ++ k :: ys ++ k' :: zs → .suspendStarted ∈ ys) ∧
    ∀ id r context, c.runs[id]? = some r → r.purpose = .suspend context →
      (c₀.reports id history = [] ∨
        ∃ kind ∈ EventKind.ofAttempt, c₀.reports id history = [kind]) ∧
      ∀ before x rest, history = before ++ x :: rest → id < (c₀.after before).runs.length →
        .suspendStarted ∈ (c₀.after before).told ((c₀.after before).step x) →
        (c₀.after before).reports id (x :: rest) = [] := by
  intro c₀ c kinds latest latest'
  have new : c₀.New := new_create config listeners
  have initial : c₀.state = config.requestedState.settled := rfl
  have running : c₀.state = .running ↔ config.requestedState = .running := by
    rw [initial]
    cases config.requestedState <;> simp [State.settled]
  have suspended : c₀.state = .suspended ↔ config.requestedState ≠ .running := by
    rw [initial]
    cases config.requestedState <;> simp [State.settled]
  refine ⟨kinds_marks new history, ?_, ?_, fun xs ys zs => resumed_between new,
    fun xs ys zs k k' first second => started_between new first second, ?_⟩
  · rw [← running]
    exact running_iff_latest c₀ history
  · rw [← suspended]
    exact suspended_iff_latest c₀ history
  · intro id r context run suspend
    refine ⟨reports_of_suspend new run suspend, ?_⟩
    rintro before x rest rfl old opening
    exact reports_after_opening new run suspend old opening

/-- A server is suspended and resumed, and is to be suspended again: the first attempt tells nothing
more. -/
theorem events_tell_state_again :
    let c₀ := create { requestedState := .running } []
    let before : List Action := .suspend {} :: List.replicate 22 (.turn 0) ++
      .resume {} :: List.replicate 11 (.turn 1)
    let rest : List Action := [.turn 0, .turn 2]
    let c := c₀.after (before ++ .suspend {} :: rest)
    c.hub.journal.toList.map (·.kind) = [.suspendStarted, .suspendComplete, .suspendCancelled,
        .resumeComplete, .suspendStarted] ∧
      c.state ≠ .running ∧ (c₀.after before).reports 0 (.suspend {} :: rest) = [] := by
  intro c₀ before rest c
  have run : c.runs[0]? = some ⟨.suspend {}, 1, .resolved .ok⟩ := by decide +kernel
  obtain ⟨-, running, -, -, -, attempts⟩ :=
    events_tell_state { requestedState := .running } [] (before ++ .suspend {} :: rest)
  refine ⟨by decide +kernel, ?_, ?_⟩
  · rw [Ne, running]
    decide +kernel
  · exact (attempts 0 _ {} run rfl).2 before _ rest rfl (by decide +kernel) (by decide +kernel)

end Controller

end Quiesce
