import Mathlib.Data.List.Induction
import Quiesce.Proofs.Growth
/-!
# Where a run stands in a history

Opening an attempt and resetting *supersede* whatever was started before. In a controller this shows
as a greater generation; here it is said of the history alone, and the two are proved to be the
same: a run has the current generation exactly as long as nothing superseded it (`superseded_iff`,
`standing_of_generation`).
-/

namespace Quiesce

/-- The request that starts a run of this purpose. -/
def Purpose.action : Purpose → Action
  | suspend context => .suspend context
  | resume context => .resume context

namespace Controller

variable {c d c₀ : Controller} {x : Action} {history : List Action} {id : Nat} {r s : Run}

/-! ## Histories -/

@[simp] theorem after_nil (c : Controller) : c.after [] = c := rfl

@[simp] theorem after_cons (c : Controller) (x : Action) (h : List Action) :
    c.after (x :: h) = (c.step x).after h := rfl

theorem after_append (c : Controller) (h h' : List Action) :
    c.after (h ++ h') = (c.after h).after h' :=
  List.foldl_append

@[simp] theorem after_concat (c : Controller) (h : List Action) (x : Action) :
    c.after (h ++ [x]) = (c.after h).step x := by
  rw [after_append]; rfl

theorem after_induction {P : Controller → Prop} (start : P c)
    (step : ∀ {c d x}, Step c x d → P c → P d) (history : List Action) : P (c.after history) := by
  induction history generalizing c with
  | nil => exact start
  | cons x h ih => exact ih (step (step_spec c x) start)

theorem later_after (c : Controller) (history : List Action) : c.Later (c.after history) :=
  after_induction (P := c.Later) (.refl c) (fun hs h => h.trans hs.later) history

/-- Nothing has happened to the controller yet. -/
def New (c : Controller) : Prop := ∃ config listeners, c = create config listeners

theorem new_create (config : Config) (listeners : List Listener) : (create config listeners).New :=
  ⟨config, listeners, rfl⟩

theorem New.runs (new : c.New) : c.runs = [] := by
  obtain ⟨config, listeners, rfl⟩ := new
  rfl

theorem New.calls (new : c.New) : c.calls = [] := by
  obtain ⟨config, listeners, rfl⟩ := new
  rfl

/-! ## Superseding -/

/-- The action opens an attempt or resets. -/
def supersedes (c : Controller) : Action → Bool
  | .suspend _ => c.state = .running
  | .reset => true
  | _ => false

/-- Nothing in a history that is still to come opens an attempt or resets. -/
def Undisturbed (c : Controller) : List Action → Prop
  | [] => True
  | x :: later => c.supersedes x = false ∧ (c.step x).Undisturbed later

/-- Run `id` was started by the action `x`; since then there was no opening and no reset. -/
def Standing (c₀ : Controller) (history : List Action) (id : Nat) (x : Action) : Prop :=
  ∃ earlier later r, history = earlier ++ x :: later ∧ (c₀.after earlier).runs.length = id ∧
    (c₀.after earlier).Starts x r ∧ ((c₀.after earlier).step x).Undisturbed later

/-- Run `id` had been started before an opening of an attempt or a reset. -/
def Superseded (c₀ : Controller) (history : List Action) (id : Nat) : Prop :=
  ∃ earlier x later, history = earlier ++ x :: later ∧ id < (c₀.after earlier).runs.length ∧
    (c₀.after earlier).supersedes x = true

theorem Step.generation (h : Step c x d) :
    d.attempt.generation = c.attempt.generation + if c.supersedes x then 1 else 0 := by
  cases h with
  | idle x why => cases x <;> simp_all [Idle, supersedes]
  | opened context running => simp [supersedes, running]
  | reset => simp [supersedes, Attempt.initial]
  | moved id r p stage run active move =>
    rw [move.attempt]
    cases move <;> rfl
  | _ => simp [supersedes, finish]

/-- A history is undisturbed exactly if the generation is the same at its end. -/
theorem undisturbed_iff {c : Controller} {later : List Action} :
    c.Undisturbed later ↔ (c.after later).attempt.generation = c.attempt.generation := by
  induction later generalizing c with
  | nil => simp [Undisturbed]
  | cons x later ih =>
    have hx := (step_spec c x).generation
    have hle := (later_after (c.step x) later).generation_le
    rw [Undisturbed, after_cons, ih]
    cases hs : c.supersedes x with
    | false => simp [hs] at hx; simp [hx]
    | true => simp [hs] at hx; simp; omega

theorem exists_supersedes {c : Controller} {later : List Action} (h : ¬ c.Undisturbed later) :
    ∃ before x rest, later = before ++ x :: rest ∧ (c.after before).supersedes x = true := by
  induction later generalizing c with
  | nil => exact absurd trivial h
  | cons x later ih =>
    cases hx : c.supersedes x with
    | true => exact ⟨[], x, later, rfl, hx⟩
    | false =>
      obtain ⟨before, y, rest, rfl, hy⟩ := ih fun hu => h ⟨hx, hu⟩
      exact ⟨x :: before, y, rest, rfl, hy⟩

/-! ## Where runs come from -/

theorem Starts.action_eq (h : c.Starts x s) : x = s.purpose.action := by
  cases h <;> rfl

theorem Starts.generation (h : c.Starts x s) : s.generation = (c.step x).attempt.generation := by
  cases h with
  | suspend context running => simp [step, Controller.suspend, running, Run.start]
  | resume context notRunning => simp [step, Controller.resume, notRunning, Run.start]

theorem Starts.length_runs (h : c.Starts x s) : (c.step x).runs.length = c.runs.length + 1 := by
  cases h with
  | suspend context running => simp [step, Controller.suspend, running]
  | resume context notRunning => simp [step, Controller.resume, notRunning]

theorem started (new : c₀.New) (hr : (c₀.after history).runs[id]? = some r) :
    ∃ earlier x later s, history = earlier ++ x :: later ∧
      (c₀.after earlier).runs.length = id ∧ (c₀.after earlier).Starts x s ∧ s.Later r := by
  induction history using List.reverseRecOn generalizing r with
  | nil => simp [new.runs] at hr
  | append_singleton h x ih =>
    rw [after_concat] at hr
    have hs := step_spec (c₀.after h) x
    by_cases hlt : id < (c₀.after h).runs.length
    · obtain ⟨q, hq, hqr⟩ := hs.later.run_of_lt hr hlt
      obtain ⟨earlier, y, later, s, rfl, hid, hy, hsq⟩ := ih hq
      exact ⟨earlier, y, later ++ [x], s, by simp, hid, hy, hsq.trans hqr⟩
    · obtain ⟨hid, hx⟩ := hs.newRun hr (Nat.le_of_not_lt hlt)
      exact ⟨h, x, [], r, rfl, hid.symm, hx, .refl r⟩

theorem generation_le (new : c₀.New) (hr : (c₀.after history).runs[id]? = some r) :
    r.generation ≤ (c₀.after history).attempt.generation := by
  obtain ⟨earlier, x, later, s, rfl, -, hx, hsr⟩ := started new hr
  rw [hsr.generation, hx.generation, after_append, after_cons]
  exact (later_after _ later).generation_le

theorem lt_of_generation_lt (new : c₀.New) {j : Nat} (hr : (c₀.after history).runs[id]? = some r)
    (hs : (c₀.after history).runs[j]? = some s) (lt : r.generation < s.generation) : id < j := by
  by_contra hle
  rcases Nat.lt_or_eq_of_le (Nat.le_of_not_lt hle) with hlt | rfl
  · obtain ⟨earlier, x, later, t, rfl, rfl, hx, htr⟩ := started new hr
    rw [after_append] at hs
    obtain ⟨q, hq, hqs⟩ := (later_after (c₀.after earlier) (x :: later)).run_of_lt hs hlt
    have h1 := generation_le new hq
    have h2 := (step_spec (c₀.after earlier) x).later.generation_le
    rw [hqs.generation, htr.generation, hx.generation] at lt
    omega
  · rw [hr] at hs
    cases hs
    omega

/-- A run of the current generation stands. -/
theorem standing_of_generation (new : c₀.New) (hr : (c₀.after history).runs[id]? = some r)
    (hg : r.generation = (c₀.after history).attempt.generation) :
    c₀.Standing history id r.purpose.action := by
  obtain ⟨earlier, x, later, s, rfl, hid, hx, hsr⟩ := started new hr
  have hpa : r.purpose.action = x := by rw [hsr.purpose]; exact hx.action_eq.symm
  refine ⟨earlier, later, s, by rw [hpa], hid, hpa ▸ hx, ?_⟩
  rw [hpa, undisturbed_iff]
  rw [hsr.generation, hx.generation, after_append, after_cons] at hg
  exact hg.symm

/-- A run is superseded exactly if the generation has moved on. -/
theorem superseded_iff (new : c₀.New) (hr : (c₀.after history).runs[id]? = some r) :
    c₀.Superseded history id ↔ r.generation < (c₀.after history).attempt.generation := by
  constructor
  · rintro ⟨earlier, x, later, rfl, hid, hx⟩
    rw [after_append, after_cons] at hr ⊢
    have hs := step_spec (c₀.after earlier) x
    have hl := later_after ((c₀.after earlier).step x) later
    obtain ⟨q, hq, hqr⟩ := (hs.later.trans hl).run_of_lt hr hid
    have h1 := generation_le new hq
    have h2 := hs.generation
    have h3 := hl.generation_le
    rw [hqr.generation]
    simp only [hx, if_true] at h2
    omega
  · intro hlt
    obtain ⟨earlier, x, later, s, rfl, hid, hx, hsr⟩ := started new hr
    rw [hsr.generation, hx.generation, after_append, after_cons] at hlt
    have hd : ¬ ((c₀.after earlier).step x).Undisturbed later := by
      rw [undisturbed_iff]; omega
    obtain ⟨before, y, rest, rfl, hy⟩ := exists_supersedes hd
    refine ⟨earlier ++ x :: before, y, rest, by simp, ?_, by rwa [after_append, after_cons]⟩
    rw [after_append, after_cons]
    have := (later_after ((c₀.after earlier).step x) before).length_runs
    have := hx.length_runs
    omega

end Controller

end Quiesce
