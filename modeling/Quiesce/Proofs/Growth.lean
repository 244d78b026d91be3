import Quiesce.Proofs.Step
/-!
# Nothing is taken back

A controller only ever adds to its past: a run keeps its purpose, its generation and, once it is
there, its outcome; a call keeps what was asked and how it ended; a cancelled token stays cancelled;
generations grow. `Later` collects this, `Step.later` proves it of one action and `later_after` of a
history. `Step.newRun` and `Step.newCall` say where new runs and calls come from.
-/

namespace Quiesce

structure Run.Later (r s : Run) : Prop where
  purpose : s.purpose = r.purpose
  generation : s.generation = r.generation
  resolved : ∀ o, r.stage = .resolved o → s.stage = .resolved o

structure Call.Later (k l : Call) : Prop where
  activity : l.activity = k.activity
  request : l.request = k.request
  token : l.token = k.token
  origin : l.origin = k.origin
  ending : ∀ e, k.ending? = some e → l.ending? = some e

theorem Run.Later.refl (r : Run) : r.Later r := ⟨rfl, rfl, fun _ h => h⟩

theorem Run.Later.trans {r s t : Run} (h : r.Later s) (h' : s.Later t) : r.Later t :=
  ⟨h'.purpose.trans h.purpose, h'.generation.trans h.generation,
    fun o ho => h'.resolved o (h.resolved o ho)⟩

theorem Run.Later.token_eq {r s : Run} (h : r.Later s) (id : Nat) : s.token id = r.token id := by
  unfold Run.token
  rw [h.purpose, h.generation]

theorem Run.Later.unresolved {r s : Run} (h : r.Later s) (hs : s.outcome? = none) :
    r.outcome? = none := by
  rw [Run.outcome?_eq_none] at hs
  obtain ⟨p, hp⟩ := hs
  cases hr : r.outcome? with
  | none => rfl
  | some o =>
    have := h.resolved o (Run.outcome?_eq_some.1 hr)
    rw [hp] at this
    cases this

theorem Run.later_setStage {r : Run} {p : PhaseRun} (active : r.stage = .active p) (s : RunStage) :
    r.Later { r with stage := s } :=
  ⟨rfl, rfl, fun o h => by rw [active] at h; cases h⟩

theorem Call.Later.refl (k : Call) : k.Later k := ⟨rfl, rfl, rfl, rfl, fun _ h => h⟩

theorem Call.Later.trans {k l m : Call} (h : k.Later l) (h' : l.Later m) : k.Later m :=
  ⟨h'.activity.trans h.activity, h'.request.trans h.request, h'.token.trans h.token,
    h'.origin.trans h.origin, fun e he => h'.ending e (h.ending e he)⟩

theorem Call.later_finish (k : Call) (e : Ending) : k.Later (k.finish e) :=
  ⟨rfl, rfl, rfl, rfl, fun e' h => by simp [Call.finish, h]⟩

namespace Controller

variable {c d : Controller} {x : Action} {id j : Nat} {r s : Run} {p : PhaseRun}

/-- `d` is what became of the controller `c`. -/
structure Later (c d : Controller) : Prop where
  generation_le : c.attempt.generation ≤ d.attempt.generation
  runs : ∀ {id : Nat} {r : Run}, c.runs[id]? = some r → ∃ s, d.runs[id]? = some s ∧ r.Later s
  calls : ∀ {i : Nat} {k : Call}, c.calls[i]? = some k → ∃ l, d.calls[i]? = some l ∧ k.Later l
  cancelled : ∀ {t : Token}, t ∈ c.cancelled → t ∈ d.cancelled

theorem Later.refl (c : Controller) : c.Later c :=
  ⟨Nat.le_refl _, fun {_ r} h => ⟨r, h, .refl r⟩, fun {_ k} h => ⟨k, h, .refl k⟩, id⟩

theorem Later.trans {e : Controller} (h : c.Later d) (h' : d.Later e) : c.Later e where
  generation_le := Nat.le_trans h.generation_le h'.generation_le
  runs hr := by
    obtain ⟨s, hs, hrs⟩ := h.runs hr
    obtain ⟨t, ht, hst⟩ := h'.runs hs
    exact ⟨t, ht, hrs.trans hst⟩
  calls hk := by
    obtain ⟨l, hl, hkl⟩ := h.calls hk
    obtain ⟨m, hm, hlm⟩ := h'.calls hl
    exact ⟨m, hm, hkl.trans hlm⟩
  cancelled ht := h'.cancelled (h.cancelled ht)

theorem Later.length_runs (h : c.Later d) : c.runs.length ≤ d.runs.length := by
  refine Nat.le_of_not_lt fun hlt => ?_
  obtain ⟨s, hs, -⟩ := h.runs (List.getElem?_eq_getElem hlt)
  have := (List.getElem?_eq_some_iff.1 hs).1
  omega

theorem Later.run_of_lt (h : c.Later d) {id : Nat} {s : Run} (hs : d.runs[id]? = some s)
    (hlt : id < c.runs.length) : ∃ r, c.runs[id]? = some r ∧ r.Later s := by
  obtain ⟨s', hs', hl⟩ := h.runs (List.getElem?_eq_getElem hlt)
  rw [hs] at hs'
  cases hs'
  exact ⟨_, List.getElem?_eq_getElem hlt, hl⟩

theorem Later.call_of_lt (h : c.Later d) {i : Nat} {l : Call} (hl : d.calls[i]? = some l)
    (hlt : i < c.calls.length) : ∃ k, c.calls[i]? = some k ∧ k.Later l := by
  obtain ⟨l', hl', hk⟩ := h.calls (List.getElem?_eq_getElem hlt)
  rw [hl] at hl'
  cases hl'
  exact ⟨_, List.getElem?_eq_getElem hlt, hk⟩

theorem Later.isCancelled (h : c.Later d) {t : Token} (ht : c.isCancelled t = true) :
    d.isCancelled t = true :=
  Token.cancelledBy_mono (fun _ hu => h.cancelled hu) ht

/-! ## One action -/

theorem runs_later_setStage {id : Nat} {r : Run} {p : PhaseRun} (run : c.runs[id]? = some r)
    (active : r.stage = .active p) (stage : RunStage) {j : Nat} {s : Run}
    (hs : c.runs[j]? = some s) : ∃ t, (c.setStage id stage).runs[j]? = some t ∧ s.Later t := by
  rw [runs_setStage]
  by_cases h : j = id
  · subst h
    rw [run] at hs
    cases hs
    exact ⟨_, by simp [run], Run.later_setStage active stage⟩
  · exact ⟨s, by simp [h, hs], .refl s⟩

theorem getElem?_of_prefix {α : Type} {xs ys : List α} (h : xs <+: ys) {i : Nat} {a : α}
    (ha : xs[i]? = some a) : ys[i]? = some a := by
  obtain ⟨zs, rfl⟩ := h
  rw [List.getElem?_append_left (List.getElem?_eq_some_iff.1 ha).1, ha]

theorem later_of_prefix (generation_le : c.attempt.generation ≤ d.attempt.generation)
    (runs : c.runs <+: d.runs) (calls : c.calls <+: d.calls)
    (cancelled : ∀ {t : Token}, t ∈ c.cancelled → t ∈ d.cancelled) : c.Later d where
  generation_le := generation_le
  runs {_ r} h := ⟨r, getElem?_of_prefix runs h, .refl r⟩
  calls {_ k} h := ⟨k, getElem?_of_prefix calls h, .refl k⟩
  cancelled := cancelled

theorem later_of_setStage {id : Nat} {r : Run} {p : PhaseRun} (s : RunStage)
    (run : c.runs[id]? = some r) (active : r.stage = .active p)
    (generation : d.attempt.generation = c.attempt.generation)
    (runs : d.runs = (c.setStage id s).runs) (calls : c.calls <+: d.calls)
    (cancelled : ∀ {t : Token}, t ∈ c.cancelled → t ∈ d.cancelled) : c.Later d where
  generation_le := Nat.le_of_eq generation.symm
  runs h := by rw [runs]; exact runs_later_setStage run active s h
  calls {_ k} h := ⟨k, getElem?_of_prefix calls h, .refl k⟩
  cancelled := cancelled

theorem later_finish (c : Controller) (call : Nat) (e : Ending) : c.Later (c.finish call e) where
  generation_le := Nat.le_refl _
  runs {_ r} h := ⟨r, h, .refl r⟩
  calls {i k} h := by
    by_cases hi : i = call
    · subst hi
      exact ⟨k.finish e, by simp [finish, h], k.later_finish e⟩
    · exact ⟨k, by simp [finish, h, Ne.symm hi], .refl k⟩
  cancelled := id

theorem Step.later (h : Step c x d) : c.Later d := by
  cases h with
  | idle x why => exact .refl c
  | opened context running =>
    exact later_of_prefix (Nat.le_succ _) (List.prefix_append _ _) List.prefix_rfl id
  | resuming context notRunning =>
    exact later_of_prefix (by simp) (List.prefix_append _ _) (by simp) (by simp +contextual)
  | reset =>
    exact later_of_prefix (by simp [Attempt.initial]) (by simp) (by simp) (by simp +contextual)
  | cancelled g known => exact later_of_prefix (by simp) (by simp) (by simp) (by simp +contextual)
  | registered a level p valid untracked running | unregistered a p tracked | listeners x =>
    exact later_of_prefix (Nat.le_refl _) List.prefix_rfl List.prefix_rfl id
  | lateRegistered a level p valid untracked notRunning =>
    exact later_of_prefix (Nat.le_refl _) List.prefix_rfl (List.prefix_append _ _) id
  | finished call e => exact later_finish c call e
  | moved id r p stage run active move =>
    exact later_of_setStage stage run active (by rw [move.attempt]) move.runs move.calls
      move.cancelled

/-! ## Runs before and after -/

theorem run_of_setStage {stage : RunStage} (run : c.runs[id]? = some r)
    (runs : d.runs = (c.setStage id stage).runs) (hs : d.runs[j]? = some s) :
    (j = id ∧ s = { r with stage }) ∨ (j ≠ id ∧ c.runs[j]? = some s) := by
  rw [runs, runs_setStage] at hs
  by_cases hj : j = id
  · subst hj
    simp only [if_true, run, Option.map_some, Option.some.injEq] at hs
    exact .inl ⟨rfl, hs.symm⟩
  · rw [if_neg hj] at hs
    exact .inr ⟨hj, hs⟩

theorem run_of_append {t : Run} (runs : d.runs = c.runs ++ [t]) (hs : d.runs[j]? = some s) :
    (j = c.runs.length ∧ s = t) ∨ c.runs[j]? = some s := by
  rw [runs, List.getElem?_append] at hs
  by_cases hj : j < c.runs.length
  · rw [if_pos hj] at hs
    exact .inr hs
  · rw [if_neg hj, List.getElem?_singleton] at hs
    by_cases h0 : j - c.runs.length = 0
    · rw [if_pos h0] at hs
      cases hs
      exact .inl ⟨by omega, rfl⟩
    · rw [if_neg h0] at hs
      cases hs

/-- Whatever became of a run at one action, it made a move. -/
theorem Step.move_of_ne (h : Step c x d) (hr : c.runs[id]? = some r) (hs : d.runs[id]? = some s)
    (ne : s ≠ r) :
    ∃ p stage, r.stage = .active p ∧ s = { r with stage } ∧ c.Move id r p x stage d := by
  have old : c.runs[id]? ≠ some s := fun h => ne (by simpa [hr] using h.symm)
  have lt : id < c.runs.length := (List.getElem?_eq_some_iff.1 hr).1
  cases h with
  | moved id' r' p stage run active move =>
    rcases run_of_setStage run move.runs hs with ⟨rfl, rfl⟩ | ⟨-, hs⟩
    · rw [hr] at run
      cases run
      exact ⟨p, stage, active, rfl, move⟩
    · exact absurd hs old
  | opened context running =>
    rcases run_of_append rfl hs with ⟨rfl, -⟩ | hs
    · omega
    · exact absurd hs old
  | resuming context notRunning =>
    rcases run_of_append (c := c) rfl hs with ⟨rfl, -⟩ | hs
    · omega
    · exact absurd hs old
  | reset | cancelled => exact absurd (by simpa using hs) old
  | _ => exact absurd hs old

/-! ## What is new -/

/-- The action starts this run. -/
inductive Starts (c : Controller) : Action → Run → Prop
  | suspend (context : SuspendContext) (running : c.state = .running) :
    Starts c (.suspend context) (.start (.suspend context) (c.attempt.generation + 1))
  | resume (context : ResumeContext) (notRunning : c.state ≠ .running) :
    Starts c (.resume context) (.start (.resume context) c.attempt.generation)

theorem Step.newRun (h : Step c x d) {id : Nat} {s : Run} (hs : d.runs[id]? = some s)
    (hlt : c.runs.length ≤ id) : id = c.runs.length ∧ c.Starts x s := by
  have len : id < d.runs.length := (List.getElem?_eq_some_iff.1 hs).1
  cases h with
  | opened context running =>
    have : id = c.runs.length := by simp at len; omega
    subst this
    simp at hs
    exact ⟨rfl, hs ▸ .suspend context running⟩
  | resuming context notRunning =>
    have : id = c.runs.length := by simp at len; omega
    subst this
    simp at hs
    exact ⟨rfl, hs ▸ .resume context notRunning⟩
  | idle x why => omega
  | moved id r p stage run active move => rw [move.runs, length_runs_setStage] at len; omega
  | _ => simp [finish] at len; omega

theorem newCall_of_launch {q : Priority} {ms : List Activity} {rest : List Priority} {i : Nat}
    {k : Call} (hk : (c.launch id r p q ms rest).calls[i]? = some k) (hlt : c.calls.length ≤ i) :
    i ∈ List.range' c.calls.length ms.length ∧ k.origin = .run id q ∧ k.request = p.request ∧
      k.activity ∈ ms := by
  rcases call_of_launch hk with old | new
  · have := (List.getElem?_eq_some_iff.1 old).1
    omega
  · exact new

theorem Step.newCall (h : Step c x d) {i : Nat} {k : Call} {q : Priority}
    (hk : d.calls[i]? = some k) (ho : k.origin = .run id q) (hlt : c.calls.length ≤ i) :
    ∃ r p rest, c.runs[id]? = some r ∧ r.stage = .active p ∧ c.isCancelled (r.token id) = false ∧
      p.barrier? = none ∧ p.ahead = q :: rest ∧
      d = c.launch id r p q (c.registry.members q) rest := by
  have len : i < d.calls.length := (List.getElem?_eq_some_iff.1 hk).1
  cases h with
  | lateRegistered a level p valid untracked notRunning =>
    have : i = c.calls.length := by simp at len; omega
    subst this
    simp at hk
    rw [← hk] at ho
    cases ho
  | moved id' r p stage run active move =>
    cases move with
    | launched q' rest live barrier ahead inhabited =>
      rw [(newCall_of_launch hk hlt).2.1] at ho
      cases ho
      exact ⟨r, p, rest, run, active, live, barrier, ahead, rfl⟩
    | _ => simp [resolve, fail] at len; omega
  | idle x why => omega
  | _ => simp [finish] at len; omega

end Controller

end Quiesce
