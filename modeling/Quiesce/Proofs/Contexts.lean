import Quiesce.Proofs.Coalescing
import Quiesce.Proofs.Tokens
/-!
# Whose context an activity is told

Callers give contexts along with their requests, and several requests may be under way at once. A
run tells its members the context of the request that started it, and no other (`StartedBy`). A late
registration belongs to no request; it passes on what was last said to the server: the context of
the latest attempt opened since the last reset, or the boot context if there is none (`Recalls`).
What the caller of a suspend says who only joins an attempt is told to nobody: without these
requests everything comes to the same (`withoutJoins`).
-/

namespace Quiesce.Controller

variable {c d c₀ : Controller} {x : Action} {history later : List Action} {id i : Nat} {k : Call}
  {q : Priority} {context context' : SuspendContext}

/-- Run `id` was started by this action of the history. -/
def StartedBy (c₀ : Controller) (history : List Action) (id : Nat) (x : Action) : Prop :=
  ∃ before rest r, history = before ++ x :: rest ∧ (c₀.after before).runs.length = id ∧
    (c₀.after before).Starts x r

/-- The context that a late registration would pass on after a history. -/
inductive Recalls (c₀ : Controller) (history : List Action) : SuspendContext → Prop
  /-- An attempt was opened with this context; since then there was no other opening and no reset.
  -/
  | opened (before : List Action) (context : SuspendContext) (later : List Action)
      (split : history = before ++ .suspend context :: later)
      (running : (c₀.after before).state = .running)
      (undisturbed : ((c₀.after before).step (.suspend context)).Undisturbed later) :
    Recalls c₀ history context
  /-- No attempt was opened since the last reset. -/
  | reset (before later : List Action) (split : history = before ++ .reset :: later)
      (undisturbed : ((c₀.after before).step .reset).Undisturbed later) :
    Recalls c₀ history .boot
  /-- There was never an opening or a reset. -/
  | created (undisturbed : c₀.Undisturbed history) : Recalls c₀ history .boot

/-- The action is a suspend that meets a server which is not running. -/
def joins (c : Controller) : Action → Bool
  | .suspend _ => c.state ≠ .running
  | _ => false

/-- A history without the suspends that only join an attempt. -/
def withoutJoins (c : Controller) : List Action → List Action
  | [] => []
  | x :: later => (if c.joins x then [] else [x]) ++ (c.step x).withoutJoins later

/-! ## Runs -/

theorem startedBy_of_call (new : c₀.New) (made : (c₀.after history).calls[i]? = some k)
    (origin : k.origin = .run id q) : c₀.StartedBy history id k.request.purpose.action := by
  obtain ⟨r, run, purpose⟩ := purpose_of_call new made origin
  obtain ⟨before, x, rest, s, split, number, starts, kept⟩ := started new run
  have same : x = k.request.purpose.action := by
    rw [starts.action_eq, ← kept.purpose, purpose]
  exact ⟨before, rest, s, same ▸ split, number, same ▸ starts⟩

/-! ## Late registrations -/

theorem context_of_new (new : c₀.New) : c₀.attempt.context = .boot := by
  obtain ⟨config, listeners, rfl⟩ := new
  rfl

theorem Undisturbed.concat (undisturbed : c.Undisturbed later)
    (still : (c.after later).supersedes x = false) : c.Undisturbed (later ++ [x]) := by
  rw [undisturbed_iff] at undisturbed ⊢
  rw [after_concat, (step_spec _ x).generation, still]
  exact undisturbed

theorem context_of_undisturbed (undisturbed : c.Undisturbed later) :
    (c.after later).attempt.context = c.attempt.context :=
  congrArg Attempt.context (attempt_eq_of_generation (undisturbed_iff.1 undisturbed))

theorem Recalls.concat (recalls : c₀.Recalls history context)
    (still : (c₀.after history).supersedes x = false) : c₀.Recalls (history ++ [x]) context := by
  cases recalls with
  | opened before _ later split running undisturbed =>
    subst split
    rw [after_append, after_cons] at still
    exact .opened before context (later ++ [x]) (by simp) running (undisturbed.concat still)
  | reset before later split undisturbed =>
    subst split
    rw [after_append, after_cons] at still
    exact .reset before (later ++ [x]) (by simp) (undisturbed.concat still)
  | created undisturbed => exact .created (undisturbed.concat still)

theorem recalls_of_supersedes (supersedes : (c₀.after history).supersedes x = true) :
    c₀.Recalls (history ++ [x]) ((c₀.after history).step x).attempt.context := by
  cases x with
  | suspend context =>
    have running : (c₀.after history).state = .running := by
      simpa [Controller.supersedes] using supersedes
    have current : ((c₀.after history).step (.suspend context)).attempt.context = context := by
      simp [step, suspend, running]
    rw [current]
    exact .opened history context [] rfl running trivial
  | reset => exact .reset history [] rfl trivial
  | _ => cases supersedes

/-- **What is recalled is the context of the current attempt.** -/
theorem recalls_iff (new : c₀.New) :
    c₀.Recalls history context ↔ (c₀.after history).attempt.context = context := by
  constructor
  · intro recalls
    cases recalls with
    | opened before _ later split running undisturbed =>
      rw [split, after_append, after_cons, context_of_undisturbed undisturbed]
      simp [step, suspend, running]
    | reset before later split undisturbed =>
      rw [split, after_append, after_cons, context_of_undisturbed undisturbed]
      rfl
    | created undisturbed => rw [context_of_undisturbed undisturbed, context_of_new new]
  · rintro rfl
    induction history using List.reverseRecOn with
    | nil =>
      rw [after_nil, context_of_new new]
      exact .created trivial
    | append_singleton h x ih =>
      rw [after_concat]
      cases supersedes : (c₀.after h).supersedes x with
      | true => exact recalls_of_supersedes supersedes
      | false =>
        rw [(step_spec _ x).attempt_eq supersedes]
        exact ih.concat supersedes

/-- A late call was made by the registration of its activity, with the context of the attempt that
was the current one. -/
theorem register_of_call (new : c₀.New) (made : (c₀.after history).calls[i]? = some k)
    (origin : k.origin = .late q) :
    ∃ before level rest, history = before ++ .register k.activity level :: rest ∧
      (c₀.after before).calls.length = i ∧ (c₀.after before).state ≠ .running ∧
      k.request = .suspend (c₀.after before).attempt.context := by
  obtain ⟨before, x, rest, l, split, makes, -, kept⟩ := call_made made (by simp [new.calls])
  have token : k.token = .late i := (issued_after new history).late made origin
  rw [kept.origin] at origin
  rw [kept.token] at token
  rw [kept.activity, kept.request]
  cases makes with
  | member id q l reaches origin' member =>
    rw [origin] at origin'
    cases origin'
  | late a level p valid untracked notRunning =>
    exact ⟨before, level, rest, split, Token.late.inj token, notRunning, rfl⟩

/-! ## Joining -/

theorem step_of_joins (joins : c.joins x = true) : c.step x = c := by
  cases x with
  | suspend context =>
    have notRunning : c.state ≠ .running := by simpa [Controller.joins] using joins
    rw [step, suspend_of_not_running notRunning]
  | _ => cases joins

/-- Without the suspends that only join, everything comes to the same. -/
theorem after_withoutJoins (c : Controller) (history : List Action) :
    c.after (c.withoutJoins history) = c.after history := by
  induction history generalizing c with
  | nil => rfl
  | cons x later ih =>
    rw [withoutJoins, after_append, after_cons, ← ih]
    cases joins : c.joins x with
    | true => simp [step_of_joins joins]
    | false => simp

/-! ## The law -/

/-- **An activity is told what the caller said on whose behalf it is called.** Let anything happen
to a controller. Whatever a run calls an activity for, it tells the context that was given to the
suspend or to the resume that started this very run (1). A late registration, which was made while
the server was not running, tells the context of the latest attempt opened since the last reset
before it, or the boot context if there was none (2). What a suspend says that only joins is told to
nobody: all the same happens without these suspends (3). What is recalled for late registrations
changes with an opening or a reset, and with nothing else (4). -/
theorem contexts_told (config : Config) (listeners : List Listener) (history : List Action) :
    let c₀ := create config listeners
    let c := c₀.after history
    (∀ (i : Nat) (k : Call) (id : Nat) (q : Priority), c.calls[i]? = some k →
      k.origin = .run id q →
      (∀ context, k.request = .prepare context ∨ k.request = .suspend context →
        c₀.StartedBy history id (.suspend context)) ∧
      ∀ context, k.request = .resume context → c₀.StartedBy history id (.resume context)) ∧
    (∀ (i : Nat) (k : Call) (q : Priority), c.calls[i]? = some k → k.origin = .late q →
      ∃ before level rest, history = before ++ .register k.activity level :: rest ∧
        (c₀.after before).calls.length = i ∧ (c₀.after before).state ≠ .running ∧
        ∀ context, k.request = .suspend context ↔ c₀.Recalls before context) ∧
    c₀.after (c₀.withoutJoins history) = c ∧
    ∀ x, c.supersedes x = false → ∀ context,
      c₀.Recalls (history ++ [x]) context ↔ c₀.Recalls history context := by
  intro c₀ c
  have new : c₀.New := new_create config listeners
  refine ⟨?_, ?_, after_withoutJoins c₀ history, ?_⟩
  · intro i k id q made origin
    have starts := startedBy_of_call new made origin
    constructor
    · rintro context (request | request) <;> rwa [request] at starts
    · intro context request
      rwa [request] at starts
  · intro i k q made origin
    obtain ⟨before, level, rest, split, number, notRunning, request⟩ :=
      register_of_call new made origin
    refine ⟨before, level, rest, split, number, notRunning, fun context => ?_⟩
    rw [recalls_iff new, request, Request.suspend.injEq]
  · intro x still context
    rw [recalls_iff new, recalls_iff new, after_concat, (step_spec _ x).attempt_eq still]

/-- An attempt prepares `a`, a suspend joins it, and a resume begins with `z`. Then `b` registers,
and `d` after a reset: each of the four is told something else. -/
theorem contexts_told_each :
    let c₀ := create { requestedState := .running } []
    let before : List Action := [.register ⟨"a", "a"⟩ 0, .register ⟨"z", "z"⟩ 9,
      .suspend { stopping := true }, .turn 0, .suspend { starting := true, stopping := true },
      .resume { starting := true }, .turn 1]
    let history := before ++ [.register ⟨"b", "b"⟩ 3, .reset, .register ⟨"d", "d"⟩ 3]
    let c := c₀.after history
    c.calls.map Call.request = [.prepare { stopping := true }, .resume { starting := true },
      .suspend { stopping := true }, .suspend .boot] ∧
    c₀.StartedBy history 0 (.suspend { stopping := true }) ∧
    c₀.StartedBy history 1 (.resume { starting := true }) ∧
    (∃ earlier level rest, history = earlier ++ .register ⟨"d", "d"⟩ level :: rest ∧
      c₀.Recalls earlier .boot) ∧
    c₀.Recalls (before ++ [.turn 1]) { stopping := true } ∧
    (c₀.withoutJoins history).length + 1 = history.length := by
  intro c₀ before history c
  obtain ⟨ofRun, late, -, -⟩ := contexts_told { requestedState := .running } [] history
  obtain ⟨-, -, -, still⟩ := contexts_told { requestedState := .running } [] before
  have first := ofRun 0 ⟨⟨"a", "a"⟩, .prepare { stopping := true },
    .child (.child (.attempt 1) 0) 0, .run 0 .first, none⟩ 0 .first (by decide) rfl
  have second := ofRun 1 ⟨⟨"z", "z"⟩, .resume { starting := true },
    .child (.child (.run 1) 1) 1, .run 1 .last, none⟩ 1 .last (by decide) rfl
  obtain ⟨earlier, level, rest, split, -, -, recalls⟩ := late 3
    ⟨⟨"d", "d"⟩, .suspend .boot, .late 3, .late ⟨3, by decide⟩, none⟩ ⟨3, by decide⟩ (by decide) rfl
  have recalled : c₀.Recalls before { stopping := true } :=
    (recalls_iff (new_create _ _)).2 (by decide)
  exact ⟨by decide, first.1 _ (.inl rfl), second.2 _ rfl,
    ⟨earlier, level, rest, split, (recalls _).1 rfl⟩, (still (.turn 1) rfl _).2 recalled, by decide⟩

end Quiesce.Controller
