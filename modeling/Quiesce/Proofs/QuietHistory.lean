import Quiesce.Proofs.Marks
import Quiesce.Proofs.Settled
import Quiesce.Proofs.Snapshots
/-!
# Quiet histories

A history is *quiet* when nobody asks anything of the controller and every call made since it began
returns. A single run then visits group after group, with nobody else in its way (`Visiting`): an
action keeps this up, unless the run is through with all groups (`Visiting.step`), and it is through
when everybody who is registered was asked once (`Visiting.asked_all`). While the run does so
nothing is told and the state stays what it is (`Still`). Quiet histories in which nothing remains
to be done exist always (`exists_done`).
-/

namespace Quiesce

/-- The action is none of a caller; calls from number `n` on return. -/
def Action.Quiet (n : Nat) : Action → Prop
  | .turn _ | .collect _ _ | .listeners _ => True
  | .finish call e => n ≤ call → e = .returned
  | .suspend _ | .resume _ | .reset | .cancel _ | .register _ _ | .unregister _ => False

/-- The run is through with all groups, and it is its turn. -/
def PhaseRun.Through (p : PhaseRun) (id : Nat) (x : Action) : Prop :=
  p.barrier? = none ∧ p.ahead = [] ∧ x = .turn id

theorem Phase.nodup_order (phase : Phase) : phase.order.Nodup :=
  phase.pairwise_order.imp fun h => h.ne

namespace Controller

variable {c d c₀ : Controller} {x : Action} {history later : List Action} {id n i : Nat} {r : Run}
  {p p' : PhaseRun} {k : Call} {q : Priority} {a : Activity} {request : Request} {stage : RunStage}
  {past : Activity → List Request}

/-- What an activity was asked, oldest request first. -/
def asked (c : Controller) (a : Activity) : List Request :=
  (c.calls.filter fun k => k.activity = a).map Call.request

def tells (c : Controller) : List Action → List EventKind
  | [] => []
  | x :: later => c.told (c.step x) ++ (c.step x).tells later

/-- The states that the server goes to in the course of a history. -/
def stateChanges (c : Controller) : List Action → List State
  | [] => []
  | x :: later => (if (c.step x).state = c.state then [] else [(c.step x).state]) ++
      (c.step x).stateChanges later

/-- In the course of the history nothing is told, and nothing changes but runs, calls and
listeners. -/
structure Still (c : Controller) (history : List Action) : Prop where
  tells : c.tells history = []
  stateChanges : c.stateChanges history = []
  state : (c.after history).state = c.state
  attempt : (c.after history).attempt = c.attempt
  registry : (c.after history).registry = c.registry

/-- Calls from number `n` on return, if they end. -/
def Obliging (c : Controller) (n : Nat) : Prop :=
  n ≤ c.calls.length ∧
    ∀ (i : Nat) (k : Call) (e : Ending), n ≤ i → c.calls[i]? = some k → k.ending? = some e →
      e = .returned

/-- Run `id` is in the phase `p`, to ask this of everybody, who were asked so much before. No other
run is under way. -/
structure Visiting (c : Controller) (n id : Nat) (request : Request)
    (past : Activity → List Request) (p : PhaseRun) : Prop where
  active : ∃ r, c.runs[id]? = some r ∧ r.stage = .active p ∧
    c.isCancelled (r.token id) = false ∧ r.generation = c.attempt.generation
  asks : p.request = request
  alone : ∀ (j : Nat) (s : Run), j ≠ id → c.runs[j]? = some s → s.outcome? ≠ none
  obliging : c.Obliging n
  pending : ∀ b, p.barrier? = some b → ∀ i ∈ b.pending, n ≤ i ∧ i < c.calls.length
  asked : ∃ visited, request.phase.order = visited ++ p.ahead ∧ ∀ a, c.asked a =
    past a ++ if ∃ q ∈ visited, c.registry.priorityOf? a = some q then [request] else []

/-- No run is under way. -/
structure Resting (c : Controller) (n : Nat) : Prop where
  resolved : ∀ (j : Nat) (s : Run), c.runs[j]? = some s → s.outcome? ≠ none
  obliging : c.Obliging n

/-- Nothing more happens: every call from number `n` on has ended, and no run can do anything. -/
structure Done (c : Controller) (n : Nat) : Prop where
  settled : c.Settled
  ended : ∀ (i : Nat) (k : Call), n ≤ i → c.calls[i]? = some k → k.ending? ≠ none

/-! ## Histories -/

theorem tells_append (c : Controller) (h h' : List Action) :
    c.tells (h ++ h') = c.tells h ++ (c.after h).tells h' := by
  induction h generalizing c with
  | nil => rfl
  | cons x h ih => simp [tells, ih]

theorem stateChanges_append (c : Controller) (h h' : List Action) :
    c.stateChanges (h ++ h') = c.stateChanges h ++ (c.after h).stateChanges h' := by
  induction h generalizing c with
  | nil => rfl
  | cons x h ih => simp [stateChanges, ih]

theorem state_after (c : Controller) (history : List Action) :
    (c.after history).state = (c.stateChanges history).getLastD c.state := by
  induction history generalizing c with
  | nil => rfl
  | cons x later ih =>
    rw [after_cons, ih, stateChanges]
    by_cases same : (c.step x).state = c.state
    · rw [if_pos same, List.nil_append, same]
    · rw [if_neg same, List.singleton_append, List.getLastD_cons]

theorem told_after (c : Controller) (history : List Action) :
    c.told (c.after history) = c.tells history := by
  have grows : ∃ es, (c.after history).hub.journal.toList = c.hub.journal.toList ++ es ∧
      (es.map (·.kind)).filter (fun kind => !kind.isSubscriberEvent) = c.tells history := by
    induction history generalizing c with
    | nil => exact ⟨[], by simp, rfl⟩
    | cons x later ih =>
      obtain ⟨es, journal, tells⟩ := ih (c.step x)
      refine ⟨c.created (c.step x) ++ es, ?_, ?_⟩
      · rw [after_cons, journal, (step_spec c x).journal, List.append_assoc]
      · rw [List.map_append, List.filter_append, tells]
        rfl
  obtain ⟨es, journal, tells⟩ := grows
  rw [told, created_of_journal journal, tells]

theorem still_nil (c : Controller) : c.Still [] := ⟨rfl, rfl, rfl, rfl, rfl⟩

theorem Still.append {h h' : List Action} (still : c.Still h) (still' : (c.after h).Still h') :
    c.Still (h ++ h') where
  tells := by rw [tells_append, still.tells, still'.tells]; rfl
  stateChanges := by rw [stateChanges_append, still.stateChanges, still'.stateChanges]; rfl
  state := by rw [after_append, still'.state, still.state]
  attempt := by rw [after_append, still'.attempt, still.attempt]
  registry := by rw [after_append, still'.registry, still.registry]

theorem still_singleton (told : c.told (c.step x) = []) (state : (c.step x).state = c.state)
    (attempt : (c.step x).attempt = c.attempt) (registry : (c.step x).registry = c.registry) :
    c.Still [x] where
  tells := by simp [tells, told]
  stateChanges := by simp [stateChanges, state]
  state := state
  attempt := attempt
  registry := registry

/-! ## What activities are asked -/

theorem asked_of_calls (calls : d.calls = c.calls) : d.asked = c.asked := by
  funext a
  rw [asked, calls]
  rfl

theorem asked_finish (c : Controller) (call : Nat) (e : Ending) (a : Activity) :
    (c.finish call e).asked a = c.asked a :=
  map_filter_modify (P := fun k : Call => k.activity = a) (f := Call.request)
    (g := fun k => k.finish e) (fun _ => ⟨rfl, rfl⟩) c.calls call

theorem map_filter_callees {new : List Call} (once : (new.map Call.activity).Nodup)
    (asks : ∀ k ∈ new, k.request = request) (a : Activity) :
    (new.filter fun k => k.activity = a).map Call.request =
      if a ∈ new.map Call.activity then [request] else [] := by
  induction new with
  | nil => rfl
  | cons k new ih =>
    rw [List.map_cons, List.nodup_cons] at once
    rw [List.forall_mem_cons] at asks
    have rest := ih once.2 asks.2
    by_cases same : k.activity = a
    · have absent : a ∉ new.map Call.activity := same ▸ once.1
      rw [if_neg absent] at rest
      simp [same, rest, asks.1]
    · rw [List.filter_cons_of_neg (by simpa using same), rest]
      simp [Ne.symm same]

theorem asked_append {new : List Call} (calls : d.calls = c.calls ++ new)
    (once : (new.map Call.activity).Nodup) (asks : ∀ k ∈ new, k.request = request)
    (a : Activity) :
    d.asked a = c.asked a ++ if a ∈ new.map Call.activity then [request] else [] := by
  rw [asked, calls, List.filter_append, List.map_append, map_filter_callees once asks]
  rfl

/-! ## Obliging activities -/

theorem Obliging.of_calls (h : c.Obliging n) (calls : d.calls = c.calls) : d.Obliging n := by
  unfold Obliging
  rw [calls]
  exact h

theorem Obliging.finish (h : c.Obliging n) {call : Nat} {e : Ending}
    (quiet : n ≤ call → e = .returned) : (c.finish call e).Obliging n := by
  refine ⟨by simpa [Controller.finish] using h.1, fun i k e' late made ended => ?_⟩
  rw [Controller.finish, List.getElem?_modify] at made
  obtain ⟨l, made', rfl⟩ := Option.map_eq_some_iff.1 made
  by_cases same : call = i
  · subst same
    cases before : l.ending? with
    | some e'' =>
      simp [Call.finish, before] at ended
      exact ended ▸ h.2 _ l e'' late made' before
    | none =>
      simp [Call.finish, before] at ended
      exact ended ▸ quiet late
  · rw [if_neg same] at ended
    exact h.2 i l e' late made' ended

theorem Obliging.append (h : c.Obliging n) {new : List Call} (calls : d.calls = c.calls ++ new)
    (fresh : ∀ k ∈ new, k.ending? = none) : d.Obliging n := by
  refine ⟨by rw [calls, List.length_append]; exact Nat.le_add_right_of_le h.1, ?_⟩
  intro i k e late made ended
  rw [calls, List.getElem?_append] at made
  split at made
  · exact h.2 i k e late made ended
  · rw [fresh k (List.mem_of_getElem? made)] at ended
    cases ended

/-! ## One action -/

theorem Visiting.of_same (v : c.Visiting n id request past p) (runs : d.runs = c.runs)
    (cancelled : d.cancelled = c.cancelled) (attempt : d.attempt = c.attempt)
    (registry : d.registry = c.registry) (calls : d.calls.length = c.calls.length)
    (obliging : d.Obliging n) (asked : ∀ a, d.asked a = c.asked a) :
    d.Visiting n id request past p where
  active := by
    obtain ⟨r, run, active, live, generation⟩ := v.active
    refine ⟨r, runs ▸ run, active, ?_, attempt ▸ generation⟩
    rw [isCancelled, cancelled]
    exact live
  asks := v.asks
  alone := runs ▸ v.alone
  obliging := obliging
  pending := calls ▸ v.pending
  asked := by
    obtain ⟨visited, order, all⟩ := v.asked
    exact ⟨visited, order, fun a => by rw [asked, registry, all]⟩

theorem Visiting.goOn (v : c.Visiting n id request past p) (move : c.Move id r p x (.active p') d)
    (run : c.runs[id]? = some r) (asks : p'.request = p.request) (cancelled : d.cancelled = c.cancelled)
    (obliging : d.Obliging n)
    (pending : ∀ b, p'.barrier? = some b → ∀ i ∈ b.pending, n ≤ i ∧ i < d.calls.length)
    (asked : ∃ visited, request.phase.order = visited ++ p'.ahead ∧ ∀ a, d.asked a =
      past a ++ if ∃ q ∈ visited, c.registry.priorityOf? a = some q then [request] else []) :
    d.Visiting n id request past p' where
  active := by
    obtain ⟨r', run', active, live, generation⟩ := v.active
    rw [run] at run'
    cases run'
    refine ⟨{ r with stage := .active p' }, ?_, rfl, ?_, ?_⟩
    · rw [move.runs, runs_setStage, if_pos rfl, run]
      rfl
    · rw [isCancelled, cancelled]
      exact live
    · rw [move.attempt]
      exact generation
  asks := asks.trans v.asks
  alone j s ne there := by
    rw [move.runs, runs_setStage, if_neg ne] at there
    exact v.alone j s ne there
  obliging := obliging
  pending := pending
  asked := by
    rw [move.registry]
    exact asked

theorem Visiting.ask (v : c.Visiting n id request past p) {rest : List Priority}
    (ahead : p.ahead = q :: rest) {new : List Call} (calls : d.calls = c.calls ++ new)
    (callees : new.map Call.activity = c.registry.members q)
    (asks : ∀ k ∈ new, k.request = request) :
    ∃ visited, request.phase.order = visited ++ rest ∧ ∀ a, d.asked a =
      past a ++ if ∃ q ∈ visited, c.registry.priorityOf? a = some q then [request] else [] := by
  obtain ⟨visited, order, all⟩ := v.asked
  rw [ahead] at order
  refine ⟨visited ++ [q], by simp [order], fun a => ?_⟩
  have once := c.registry.nodup_members q
  have unvisited : q ∉ visited := by
    have distinct := request.phase.nodup_order
    rw [order, List.nodup_append] at distinct
    exact fun member => distinct.2.2 q member q List.mem_cons_self rfl
  rw [asked_append calls (callees ▸ once) asks, callees, all, List.append_assoc]
  congr 1
  by_cases now : c.registry.priorityOf? a = some q
  · have before : ¬ ∃ q' ∈ visited, c.registry.priorityOf? a = some q' := by
      rintro ⟨q', member, same⟩
      rw [now] at same
      cases same
      exact unvisited member
    rw [if_neg before, if_pos (Registry.mem_members.2 now), if_pos ⟨q, by simp, now⟩]
    rfl
  · have same : (∃ q' ∈ visited ++ [q], c.registry.priorityOf? a = some q') ↔
        ∃ q' ∈ visited, c.registry.priorityOf? a = some q' := by
      simp [now]
    rw [if_neg (fun member => now (Registry.mem_members.1 member)), List.append_nil]
    simp only [same]

/-- A move that the run makes while it is in the phase, unless it is through. -/
theorem Move.visiting (move : c.Move id r p x stage d) (v : c.Visiting n id request past p)
    (run : c.runs[id]? = some r) :
    p.Through id x ∨ (∃ p', d.Visiting n id request past p') ∧ c.told d = [] ∧
      d.state = c.state := by
  obtain ⟨r', run', active, live, -⟩ := v.active
  rw [run] at run'
  cases run'
  have unasked (same : d.calls = c.calls) (rest : List Priority) (ahead : rest = p.ahead) :
      ∃ visited, request.phase.order = visited ++ rest ∧ ∀ a, d.asked a = past a ++
        if ∃ q ∈ visited, c.registry.priorityOf? a = some q then [request] else [] := by
    obtain ⟨visited, order, all⟩ := v.asked
    exact ⟨visited, ahead ▸ order, fun a => by rw [asked, same, ← all]; rfl⟩
  cases move with
  | gaveUp why =>
    rcases why with cancelled | ⟨barrier, ahead, -⟩
    · rw [live] at cancelled
      cases cancelled
    · exact .inl ⟨barrier, ahead, rfl⟩
  | prepared context barrier ahead | suspended context barrier ahead
  | resumed context barrier ahead => exact .inl ⟨barrier, ahead, rfl⟩
  | failed call b k ending e live barrier pending made ended error =>
    -- No call that the run waits for fails.
    have returned := v.obliging.2 call k ending (v.pending b barrier call pending).1 made ended
    rw [returned] at error
    cases error
  | passedBarrier b live barrier done =>
    refine .inr ⟨⟨_, v.goOn (.passedBarrier b live barrier done) run rfl rfl
      (v.obliging.of_calls rfl) (by rintro b ⟨⟩) (unasked rfl _ rfl)⟩, told_of_hub rfl, rfl⟩
  | succeeded call b k live barrier pending made ending =>
    refine .inr ⟨⟨_, v.goOn (.succeeded call b k live barrier pending made ending) run rfl rfl
      (v.obliging.of_calls rfl) ?_ (unasked rfl _ rfl)⟩, told_of_hub rfl, rfl⟩
    intro b' barrier' i member
    simp only [PhaseRun.succeed, barrier, Option.map_some, Option.some.injEq] at barrier'
    subst barrier'
    exact v.pending b barrier i (List.mem_of_mem_erase member)
  | passedGroup q rest live barrier ahead empty =>
    refine .inr ⟨⟨_, v.goOn (.passedGroup q rest live barrier ahead empty) run rfl rfl
      (v.obliging.of_calls rfl) (by simp [barrier]) ?_⟩, told_of_hub rfl, rfl⟩
    exact v.ask ahead (List.append_nil _).symm empty.symm (by simp)
  | launched q rest live barrier ahead inhabited =>
    obtain ⟨new, calls, callees, made⟩ := calls_launch c id r p q (c.registry.members q) rest
    refine .inr ⟨⟨_, v.goOn (.launched q rest live barrier ahead inhabited) run rfl rfl
      (v.obliging.append calls fun k member => (made k member).2.2) ?_
      (v.ask ahead calls callees fun k member => (made k member).1.trans v.asks)⟩, told_of_hub rfl, rfl⟩
    rintro b ⟨⟩ i member
    rw [List.mem_range'_1] at member
    have few := congrArg List.length callees
    rw [List.length_map] at few
    have known := v.obliging.1
    rw [calls, List.length_append]
    omega

/-- **Undisturbed, a run goes on in its phase until it is through.** -/
theorem Visiting.step (v : c.Visiting n id request past p) (quiet : x.Quiet n) :
    p.Through id x ∨ (∃ p', (c.step x).Visiting n id request past p') ∧ c.Still [x] := by
  suffices h : p.Through id x ∨ (∃ p', (c.step x).Visiting n id request past p') ∧
      c.told (c.step x) = [] ∧ (c.step x).state = c.state ∧ (c.step x).attempt = c.attempt ∧
      (c.step x).registry = c.registry from
    h.imp_right fun ⟨goesOn, told, state, attempt, registry⟩ =>
      ⟨goesOn, still_singleton told state attempt registry⟩
  have hs := step_spec c x
  generalize c.step x = d at hs
  cases hs with
  | opened | resuming | reset | cancelled | registered | lateRegistered | unregistered => cases quiet
  | idle x why => exact .inr ⟨⟨p, v⟩, told_of_hub rfl, rfl, rfl, rfl⟩
  | finished call e =>
    exact .inr ⟨⟨p, v.of_same rfl rfl rfl rfl (by simp [finish]) (v.obliging.finish quiet)
      (asked_finish c call e)⟩, told_of_hub rfl, rfl, rfl, rfl⟩
  | listeners y =>
    exact .inr ⟨⟨p, v.of_same rfl rfl rfl rfl rfl (v.obliging.of_calls rfl) fun _ => rfl⟩,
      told_listeners c y, rfl, rfl, rfl⟩
  | moved j r p₀ stage run active move =>
    obtain ⟨r', run', active', -⟩ := v.active
    by_cases same : j = id
    · subst same
      rw [run] at run'
      cases run'
      rw [active] at active'
      cases active'
      rcases move.visiting v run with through | ⟨goesOn, told, state⟩
      · exact .inl through
      · exact .inr ⟨goesOn, told, state, move.attempt, move.registry⟩
    · exact absurd (Run.outcome?_eq_none.2 ⟨p₀, active⟩) (v.alone j r same run)

/-! ## A run from its first group to its last -/

theorem Visiting.after (v : c.Visiting n id request past p) (quiet : ∀ x ∈ history, x.Quiet n) :
    ((∃ p', (c.after history).Visiting n id request past p') ∧ c.Still history) ∨
      ∃ before later p', history = before ++ .turn id :: later ∧ c.Still before ∧
        (c.after before).Visiting n id request past p' ∧ p'.barrier? = none ∧ p'.ahead = [] := by
  induction history generalizing c p with
  | nil => exact .inl ⟨⟨p, v⟩, still_nil c⟩
  | cons x later ih =>
    rw [List.forall_mem_cons] at quiet
    rcases v.step quiet.1 with ⟨barrier, ahead, rfl⟩ | ⟨⟨p', v'⟩, still⟩
    · exact .inr ⟨[], later, p, rfl, still_nil c, v, barrier, ahead⟩
    · rcases ih v' quiet.2 with ⟨goesOn, still'⟩ | ⟨before, rest, p'', rfl, still', through⟩
      · exact .inl ⟨goesOn, still.append still'⟩
      · exact .inr ⟨x :: before, rest, p'', rfl, still.append still', through⟩

/-- What everybody was asked when the run is through. -/
def askedAll (c : Controller) (request : Request) (past : Activity → List Request)
    (a : Activity) : List Request :=
  past a ++ if c.registry.priorityOf? a = none then [] else [request]

/-- **A run that is through has asked everybody who is registered, and nobody else.** -/
theorem Visiting.asked_all (v : c.Visiting n id request past p) (ahead : p.ahead = []) :
    c.asked = c.askedAll request past := by
  funext a
  obtain ⟨visited, order, all⟩ := v.asked
  rw [ahead, List.append_nil] at order
  rw [all, askedAll, ← order]
  cases tracked : c.registry.priorityOf? a with
  | none => simp
  | some q => simp [Phase.mem_order]

theorem Resting.visiting (rest : c.Resting n) (purpose : Purpose) (g : Nat)
    (runs : d.runs = c.runs ++ [Run.start purpose g]) (calls : d.calls = c.calls)
    (generation : d.attempt.generation = g)
    (live : d.isCancelled ((Run.start purpose g).token c.runs.length) = false) :
    d.Visiting n c.runs.length purpose.opening c.asked (.start purpose.opening) where
  active := ⟨Run.start purpose g, by rw [runs, List.getElem?_concat_length], rfl, live,
    generation.symm⟩
  asks := rfl
  alone j s ne there := by
    rcases run_of_append runs there with ⟨last, -⟩ | old
    · exact absurd last ne
    · exact rest.resolved j s old
  obliging := rest.obliging.of_calls calls
  pending := by rintro b ⟨⟩
  asked := ⟨[], rfl, fun a => by simp [asked_of_calls calls]⟩

theorem Visiting.next (v : c.Visiting n id request past p) (ahead : p.ahead = [])
    (request' : Request)
    (runs : d.runs = (c.setStage id (.active (.start request'))).runs) (calls : d.calls = c.calls)
    (cancelled : d.cancelled = c.cancelled) (attempt : d.attempt = c.attempt) :
    d.Visiting n id request' (c.askedAll request past) (.start request') where
  active := by
    obtain ⟨r, run, -, live, generation⟩ := v.active
    refine ⟨{ r with stage := .active (.start request') }, ?_, rfl, ?_, ?_⟩
    · rw [runs, runs_setStage, if_pos rfl, run]
      rfl
    · rw [isCancelled, cancelled]
      exact live
    · rw [attempt]
      exact generation
  asks := rfl
  alone j s ne there := by
    rw [runs, runs_setStage, if_neg ne] at there
    exact v.alone j s ne there
  obliging := v.obliging.of_calls calls
  pending := by rintro b ⟨⟩
  asked := ⟨[], rfl, fun a => by simp [← v.asked_all ahead, asked_of_calls calls]⟩

theorem Visiting.rest (v : c.Visiting n id request past p) {o : Outcome}
    (runs : d.runs = (c.resolve id o).runs) (calls : d.calls = c.calls) : d.Resting n where
  resolved j s there := by
    obtain ⟨r, run, -⟩ := v.active
    rcases run_of_setStage run runs there with ⟨-, rfl⟩ | ⟨ne, old⟩
    · simp [Run.outcome?]
    · exact v.alone j s ne old
  obliging := v.obliging.of_calls calls

theorem Resting.step (rest : c.Resting n) (quiet : x.Quiet n) :
    (c.step x).Resting n ∧ (c.step x).runs = c.runs ∧ (c.step x).asked = c.asked ∧ c.Still [x] := by
  suffices h : (c.step x).Resting n ∧ (c.step x).runs = c.runs ∧ (c.step x).asked = c.asked ∧
      c.told (c.step x) = [] ∧ (c.step x).state = c.state ∧ (c.step x).attempt = c.attempt ∧
      (c.step x).registry = c.registry from
    ⟨h.1, h.2.1, h.2.2.1, still_singleton h.2.2.2.1 h.2.2.2.2.1 h.2.2.2.2.2.1 h.2.2.2.2.2.2⟩
  have hs := step_spec c x
  generalize c.step x = d at hs
  cases hs with
  | opened | resuming | reset | cancelled | registered | lateRegistered | unregistered => cases quiet
  | idle x why => exact ⟨rest, rfl, rfl, told_of_hub rfl, rfl, rfl, rfl⟩
  | finished call e =>
    exact ⟨⟨rest.resolved, rest.obliging.finish quiet⟩, rfl, funext (asked_finish c call e),
      told_of_hub rfl, rfl, rfl, rfl⟩
  | listeners y =>
    exact ⟨⟨rest.resolved, rest.obliging.of_calls rfl⟩, rfl, rfl, told_listeners c y, rfl, rfl, rfl⟩
  | moved id r p stage run active move =>
    exact absurd (Run.outcome?_eq_none.2 ⟨p, active⟩) (rest.resolved id r run)

theorem Resting.after (rest : c.Resting n) (quiet : ∀ x ∈ history, x.Quiet n) :
    (c.after history).Resting n ∧ (c.after history).runs = c.runs ∧
      (c.after history).asked = c.asked ∧ c.Still history := by
  induction history generalizing c with
  | nil => exact ⟨rest, rfl, rfl, still_nil c⟩
  | cons x later ih =>
    rw [List.forall_mem_cons] at quiet
    obtain ⟨rest', runs, asked, still⟩ := rest.step quiet.1
    obtain ⟨rest'', runs', asked', still'⟩ := ih rest' quiet.2
    exact ⟨rest'', runs'.trans runs, asked'.trans asked, still.append still'⟩

/-! ## Quiet histories come to an end -/

/-- While a run is under way not everything is done. -/
theorem Visiting.not_done (v : c.Visiting n id request past p) : ¬ c.Done n := by
  intro done
  obtain ⟨r, run, active, live, -⟩ := v.active
  obtain ⟨turn, collect⟩ := nextAction?_eq_none.1 (done.settled id)
  obtain ⟨-, b, barrier, nonempty⟩ := blocked_of_turn? run active turn
  obtain ⟨i, pending⟩ := List.exists_mem_of_ne_nil _ nonempty
  obtain ⟨late, short⟩ := v.pending b barrier i pending
  have made := List.getElem?_eq_getElem short
  exact done.ended i _ late made
    (unended_of_collect? run active live barrier pending made (collect i))

theorem work_of_eq (runs : d.runs = c.runs) (registry : d.registry = c.registry) :
    d.work = c.work := by
  have same : d.workLeft = c.workLeft := by
    funext s
    cases s <;> simp [workLeft, workOf, visits, registry]
  rw [work, work, same, runs]

theorem after_returns (c : Controller) (is : List Nat) :
    let d := c.after (is.map fun i => .finish i .returned)
    d.runs = c.runs ∧ d.registry = c.registry ∧ d.calls.length = c.calls.length ∧
      ∀ i ∈ is, ∀ k, d.calls[i]? = some k → k.ending? ≠ none := by
  induction is generalizing c with
  | nil => exact ⟨rfl, rfl, rfl, by simp⟩
  | cons i is ih =>
    obtain ⟨runs, registry, calls, ended⟩ := ih (c.finish i .returned)
    refine ⟨runs, registry, calls.trans (by simp [finish]), ?_⟩
    rw [List.forall_mem_cons]
    refine ⟨fun k made => ?_, ended⟩
    have short : i < (c.finish i .returned).calls.length :=
      calls ▸ (List.getElem?_eq_some_iff.1 made).1
    have made' := List.getElem?_eq_getElem short
    obtain ⟨k', there, kept⟩ := (later_after (c.finish i .returned)
      (is.map fun i => .finish i .returned)).calls made'
    rw [List.map_cons, after_cons] at made
    cases made.symm.trans there
    have finished : (c.finish i .returned).calls[i].ending? ≠ none := by
      simp [finish, Call.finish]
    obtain ⟨e, there'⟩ := Option.ne_none_iff_exists'.1 finished
    rw [kept.ending e there']
    simp

/-- **Whatever is still to be done can be done quietly.** -/
theorem exists_done (c : Controller) (n : Nat) :
    ∃ more, (∀ x ∈ more, x.Quiet n) ∧ (c.after more).Done n := by
  induction h : c.work using Nat.strongRecOn generalizing c with
  | ind w ih =>
    let returns := (List.range c.calls.length).map fun i => Action.finish i .returned
    have quiet : ∀ x ∈ returns, x.Quiet n := by
      intro x member
      obtain ⟨i, -, rfl⟩ := List.mem_map.1 member
      exact fun _ => rfl
    obtain ⟨runs, registry, calls, ended⟩ := after_returns c (List.range c.calls.length)
    have work : (c.after returns).work = w := (work_of_eq runs registry).trans h
    by_cases settled : (c.after returns).Settled
    · refine ⟨returns, quiet, settled, fun i k _ made => ended i ?_ k made⟩
      rw [List.mem_range, ← calls]
      exact (List.getElem?_eq_some_iff.1 made).1
    · obtain ⟨id, next⟩ := not_forall.1 settled
      obtain ⟨x, next⟩ := Option.ne_none_iff_exists'.1 next
      obtain ⟨r, p, stage, run, active, move⟩ := move_of_nextAction? next
      have less := move.work_lt run active
      obtain ⟨more, quiet', done⟩ := ih _ (work ▸ less) ((c.after returns).step x) rfl
      refine ⟨returns ++ x :: more, ?_, by rw [after_append, after_cons]; exact done⟩
      intro y member
      rcases List.mem_append.1 member with old | new
      · exact quiet y old
      · rcases List.mem_cons.1 new with rfl | new
        · have own := move.run?_eq
          cases y <;> cases own <;> trivial
        · exact quiet' y new

end Controller

end Quiesce
