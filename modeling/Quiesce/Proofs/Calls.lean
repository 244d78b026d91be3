import Quiesce.Proofs.History
/-!
# Where calls come from

An activity is called in two ways only (`Makes`): by a run that reaches the group of the activity,
and by its own registration while the server is not running. `call_made` finds the action of a
history that made a call; `exists_reaches` finds the turn at which a run reached a group that it has
behind it; `awaited` says which calls a run waits for at a barrier.
-/

namespace Quiesce.Controller

variable {c d c₀ : Controller} {x : Action} {history later : List Action} {id i : Nat} {r : Run}
  {p : PhaseRun} {k : Call} {q : Priority} {a : Activity} {request : Request}

/-- At its next turn run `id` reaches the group `q`, to ask this of its members. -/
def Reaches (c : Controller) (id : Nat) (request : Request) (q : Priority) : Prop :=
  ∃ r rest, c.runs[id]? = some r ∧ r.stage = .active ⟨request, q :: rest, none⟩ ∧
    c.isCancelled (r.token id) = false

inductive Makes (c : Controller) : Action → Call → Prop
  /-- A run reaches the group that the activity belongs to at this moment. -/
  | member (id : Nat) (q : Priority) (k : Call) (reaches : c.Reaches id k.request q)
      (origin : k.origin = .run id q) (member : k.activity ∈ c.registry.members q) :
    Makes c (.turn id) k
  /-- The activity is new, and the server is not running. -/
  | late (a : Activity) (level : Nat) (p : Priority) (valid : Priority.ofLevel level = .ok p)
      (untracked : c.registry.priorityOf? a = none) (notRunning : c.state ≠ .running) :
    Makes c (.register a level)
      ⟨a, .suspend c.attempt.context, .late c.calls.length, .late p, none⟩

/-! ## One action -/

theorem Step.makes (h : Step c x d) (hk : d.calls[i]? = some k) (isNew : c.calls.length ≤ i) :
    c.Makes x k := by
  have len : i < d.calls.length := (List.getElem?_eq_some_iff.1 hk).1
  cases h with
  | lateRegistered a level p valid untracked notRunning =>
    have last : i = c.calls.length := by simp at len; omega
    subst last
    simp at hk
    exact hk ▸ .late a level p valid untracked notRunning
  | moved id r p stage run active move =>
    cases move with
    | launched q rest live barrier ahead inhabited =>
      obtain ⟨-, origin, request, member⟩ := newCall_of_launch hk isNew
      refine .member id q k ⟨r, rest, run, ?_, live⟩ origin member
      rw [active, request, ← ahead, ← barrier]
    | _ => simp [resolve, fail] at len; omega
  | idle x why => omega
  | _ => simp [finish] at len; omega

theorem calls_launch (c : Controller) (id : Nat) (r : Run) (p : PhaseRun) (q : Priority)
    (ms : List Activity) (rest : List Priority) :
    ∃ new, (c.launch id r p q ms rest).calls = c.calls ++ new ∧ new.map Call.activity = ms ∧
      ∀ k ∈ new, k.request = p.request ∧ k.origin = .run id q ∧ k.ending? = none := by
  refine ⟨_, rfl, ?_, fun k member => ?_⟩
  · rw [List.map_map]
    exact List.zipIdx_map_fst c.calls.length ms
  · obtain ⟨⟨b, i⟩, -, rfl⟩ := List.mem_map.1 member
    exact ⟨rfl, rfl, rfl⟩

/-- A run that reaches a group calls its members, each once, and nobody else. -/
theorem Reaches.calls_step (h : c.Reaches id request q) :
    ∃ new, (c.step (.turn id)).calls = c.calls ++ new ∧
      new.map Call.activity = c.registry.members q ∧
      ∀ k ∈ new, k.request = request ∧ k.origin = .run id q ∧ k.ending? = none := by
  obtain ⟨r, rest, run, active, live⟩ := h
  have unresolved := activeRun?_eq_some.2 ⟨run, active⟩
  cases members : c.registry.members q with
  | nil =>
    exact ⟨[], by simp [step, turn?, unresolved, PhaseRun.next, live, members], rfl, by simp⟩
  | cons a as =>
    have launches : c.step (.turn id) = c.launch id r ⟨request, q :: rest, none⟩ q (a :: as) rest := by
      simp [step, turn?, unresolved, PhaseRun.next, live, members]
    rw [launches]
    exact calls_launch c id r ⟨request, q :: rest, none⟩ q (a :: as) rest

theorem Reaches.call (h : c.Reaches id request q) (tracked : c.registry.priorityOf? a = some q) :
    ∃ i k, c.calls.length ≤ i ∧ (c.step (.turn id)).calls[i]? = some k ∧ k.activity = a ∧
      k.request = request ∧ k.origin = .run id q := by
  obtain ⟨new, calls, members, made⟩ := h.calls_step
  obtain ⟨k, member, rfl⟩ := List.mem_map.1 (members ▸ Registry.mem_members.2 tracked)
  obtain ⟨j, hj⟩ := List.getElem?_of_mem member
  refine ⟨c.calls.length + j, k, Nat.le_add_right _ _, ?_, rfl, (made k member).1,
    (made k member).2.1⟩
  rw [calls, List.getElem?_append_right (Nat.le_add_right _ _), Nat.add_sub_cancel_left, hj]

theorem calls_register {level : Nat} (valid : Priority.ofLevel level = .ok q)
    (untracked : c.registry.priorityOf? a = none) :
    (c.step (.register a level)).calls =
      if c.state = .running then c.calls
      else c.calls ++
        [⟨a, .suspend c.attempt.context, .late c.calls.length, .late q, none⟩] := by
  by_cases running : c.state = .running <;>
    simp [step, registerAt, register, valid, untracked, running]

/-! ## Histories -/

theorem call_made (hk : (c.after later).calls[i]? = some k) (isNew : c.calls.length ≤ i) :
    ∃ before x rest l, later = before ++ x :: rest ∧ (c.after before).Makes x l ∧
      (c.after before).calls.length ≤ i ∧ l.Later k := by
  induction later using List.reverseRecOn generalizing k with
  | nil =>
    have := (List.getElem?_eq_some_iff.1 hk).1
    simp at this
    omega
  | append_singleton h x ih =>
    rw [after_concat] at hk
    have hs := step_spec (c.after h) x
    by_cases old : i < (c.after h).calls.length
    · obtain ⟨l, hl, hlk⟩ := hs.later.call_of_lt hk old
      obtain ⟨before, y, rest, m, rfl, made, isNew', hml⟩ := ih hl
      exact ⟨before, y, rest ++ [x], m, by simp, made, isNew', hml.trans hlk⟩
    · have isNew' := Nat.le_of_not_lt old
      exact ⟨h, x, [], k, rfl, hs.makes hk isNew', isNew', .refl k⟩

/-- A run's call was made when the run reached the group, to someone who was a member then. -/
theorem reaches_of_call (new : c₀.New) (made : (c₀.after history).calls[i]? = some k)
    (origin : k.origin = .run id q) : ∃ before rest, history = before ++ .turn id :: rest ∧
      (c₀.after before).Reaches id k.request q ∧ k.activity ∈ (c₀.after before).registry.members q := by
  obtain ⟨before, y, rest, l, split, makes, -, later⟩ := call_made made (by simp [new.calls])
  rw [later.origin] at origin
  cases makes with
  | member id' q' l reaches origin' member =>
    rw [origin] at origin'
    cases origin'
    exact ⟨before, rest, split, later.request ▸ reaches, later.activity ▸ member⟩
  | late a level p valid untracked notRunning => cases origin

/-- What a run's first phase has, and what every move of the run and every other action keeps, holds
of the phase that the run is in. -/
theorem active_induction (new : c₀.New) {P : List Action → PhaseRun → Prop}
    (start : ∀ h purpose, P h (.start (Purpose.opening purpose)))
    (stay : ∀ h x p, P h p → P (h ++ [x]) p)
    (move : ∀ {h x d r p p'}, (c₀.after h).step x = d → (c₀.after h).runs[id]? = some r →
      r.stage = .active p → (c₀.after h).Move id r p x (.active p') d → P h p → P (h ++ [x]) p')
    (run : (c₀.after history).runs[id]? = some r) (active : r.stage = .active p) :
    P history p := by
  induction history using List.reverseRecOn generalizing r p with
  | nil => simp [new.runs] at run
  | append_singleton h x ih =>
    rw [after_concat] at run
    have hs := step_spec (c₀.after h) x
    by_cases hlt : id < (c₀.after h).runs.length
    · obtain ⟨s, run', -⟩ := hs.later.run_of_lt run hlt
      by_cases same : r = s
      · subst same
        exact stay h x p (ih run' active)
      · obtain ⟨p', stage, active', rfl, moved⟩ := hs.move_of_ne run' run same
        cases active
        exact move rfl run' active' moved (ih run' active')
    · obtain ⟨-, starts⟩ := hs.newRun run (Nat.le_of_not_lt hlt)
      cases starts <;> cases active <;> exact start _ _

/-- A group that a run has behind it was reached at one of the run's turns. -/
theorem exists_reaches (new : c₀.New) (run : (c₀.after history).runs[id]? = some r)
    (active : r.stage = .active p) (behind : q ∉ p.ahead) :
    ∃ before rest, history = before ++ .turn id :: rest ∧
      (c₀.after before).Reaches id p.request q := by
  refine active_induction new
    (P := fun h p => q ∉ p.ahead → ∃ before rest, h = before ++ .turn id :: rest ∧
      (c₀.after before).Reaches id p.request q) ?_ ?_ ?_ run active behind
  · intro h purpose behind
    exact absurd (Phase.mem_order _ q) behind
  · intro h x p ih behind
    obtain ⟨before, rest, rfl, reaches⟩ := ih behind
    exact ⟨before, rest ++ [x], by simp, reaches⟩
  · intro h x d r p p' _ run active move ih behind
    -- Either the group had been behind the run already, or it was the next one.
    have earlier : q ∉ p.ahead → p'.request = p.request → ∃ before rest,
        h ++ [x] = before ++ .turn id :: rest ∧ (c₀.after before).Reaches id p'.request q := by
      intro old same
      obtain ⟨before, rest, rfl, reaches⟩ := ih old
      exact ⟨before, rest ++ [x], by simp, same ▸ reaches⟩
    have next : ∀ q' rest, (c₀.after h).isCancelled (r.token id) = false → p.barrier? = none →
        p.ahead = q' :: rest → q ∉ rest → p'.request = p.request → x = .turn id →
        ∃ before rest, h ++ [x] = before ++ .turn id :: rest ∧
          (c₀.after before).Reaches id p'.request q := by
      intro q' rest live barrier ahead hq same hx
      by_cases hqq : q = q'
      · subst hqq
        refine ⟨h, [], by rw [hx], r, rest, run, ?_, live⟩
        rw [active, same, ← ahead, ← barrier]
      · refine earlier ?_ same
        rw [ahead, List.mem_cons, not_or]
        exact ⟨hqq, hq⟩
    cases move with
    | passedBarrier b live barrier done => exact earlier behind rfl
    | passedGroup q' rest live barrier ahead empty =>
      exact next q' rest live barrier ahead behind rfl rfl
    | launched q' rest live barrier ahead inhabited =>
      exact next q' rest live barrier ahead behind rfl rfl
    | prepared context barrier ahead request may => exact absurd (Phase.mem_order .suspend q) behind
    | succeeded call b k live barrier pending made ending => exact earlier behind rfl

/-! ## What a run waits for -/

theorem token_of_launch {ms : List Activity} {rest : List Priority}
    (made : (c.launch id r p q ms rest).calls[i]? = some k) (isNew : c.calls.length ≤ i) :
    k.token = .child (.child (r.token id) c.calls.length) i := by
  simp only [launch, setStage_calls, List.getElem?_append_right isNew, List.getElem?_map,
    Option.map_eq_some_iff] at made
  obtain ⟨⟨a, j⟩, there, rfl⟩ := made
  rw [List.getElem?_zipIdx, Option.map_eq_some_iff] at there
  obtain ⟨b, -, same⟩ := there
  cases same
  rw [Nat.add_sub_cancel' isNew]

theorem call_of_mem_launch {ms : List Activity} {rest : List Priority}
    (pending : i ∈ List.range' c.calls.length ms.length) :
    ∃ k, (c.launch id r p q ms rest).calls[i]? = some k ∧ k.origin = .run id q ∧
      k.request = p.request ∧ k.token = .child (.child (r.token id) c.calls.length) i := by
  rw [List.mem_range'_1] at pending
  have made : i < (c.launch id r p q ms rest).calls.length := by
    simp only [launch, setStage_calls, List.length_append, List.length_map, List.length_zipIdx]
    exact pending.2
  have call := List.getElem?_eq_getElem made
  obtain ⟨-, origin, request, -⟩ := newCall_of_launch call pending.1
  exact ⟨_, call, origin, request, token_of_launch call pending.1⟩

/-- A run waits only for calls of its own, made in its present phase to members of the group that it
waits at, with tokens under that of the group. -/
theorem awaited (new : c₀.New) (run : (c₀.after history).runs[id]? = some r)
    (active : r.stage = .active p) {b : Barrier} (barrier : p.barrier? = some b)
    (pending : i ∈ b.pending) :
    ∃ k, (c₀.after history).calls[i]? = some k ∧ k.origin = .run id b.priority ∧
      k.request = p.request ∧ k.token = .child b.token i := by
  refine active_induction new
    (P := fun h p => ∀ b i, p.barrier? = some b → i ∈ b.pending →
      ∃ k, (c₀.after h).calls[i]? = some k ∧ k.origin = .run id b.priority ∧
        k.request = p.request ∧ k.token = .child b.token i) ?_ ?_ ?_ run active b i barrier pending
  · intro h purpose b i barrier
    cases barrier
  · intro h x p ih b i barrier pending
    obtain ⟨k, made, origin, request, token⟩ := ih b i barrier pending
    obtain ⟨l, made', hl⟩ := (step_spec (c₀.after h) x).later.calls made
    exact ⟨l, after_concat c₀ h x ▸ made', hl.origin.trans origin, hl.request.trans request,
      hl.token.trans token⟩
  · intro h x d r p p' hd run active move ih b i barrier pending
    rw [after_concat, hd]
    cases move with
    | passedBarrier | prepared => cases barrier
    | passedGroup q rest live none ahead empty => rw [none] at barrier; cases barrier
    | launched q rest live none ahead inhabited =>
      cases barrier
      exact call_of_mem_launch pending
    | succeeded call b' k live waits awaited made ending =>
      simp only [PhaseRun.succeed, waits, Option.map_some, Option.some.injEq] at barrier
      subst barrier
      exact ih b' i waits (List.mem_of_mem_erase pending)

end Quiesce.Controller
