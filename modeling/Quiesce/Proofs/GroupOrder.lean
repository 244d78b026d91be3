import Quiesce.Proofs.History
/-!
# The order of the groups

A run calls one group after another, in the order of its phase, and calls nobody before all of its
earlier calls have returned. Who is registered while the run waits changes who the members are, but
not that: a group left behind is not visited again.
-/

namespace Quiesce

/-- The phase visits the one group before the other. -/
def Phase.Before : Phase → Priority → Priority → Prop
  | prepare, p, q | suspend, p, q => p < q
  | resume, p, q => q < p

theorem Phase.pairwise_order (phase : Phase) : phase.order.Pairwise phase.Before := by
  cases phase with
  | prepare =>
    show Priority.all.Pairwise (· < ·)
    decide
  | suspend =>
    show Priority.all.Pairwise (· < ·)
    decide
  | resume =>
    show Priority.all.reverse.Pairwise (· > ·)
    decide

namespace Controller

variable {c d c₀ : Controller} {x : Action} {history : List Action} {id i : Nat} {r : Run}
  {p p' : PhaseRun} {k : Call} {q : Priority}

/-- Run `id`, which is in the phase `p`, has visited the groups in order. -/
structure InOrder (c : Controller) (id : Nat) (p : PhaseRun) : Prop where
  ahead : p.ahead.Pairwise p.request.phase.Before
  /-- The groups called in this phase come before those ahead. -/
  visited : ∀ {i : Nat} {k : Call} {q : Priority}, c.calls[i]? = some k → k.origin = .run id q →
    k.request.phase = p.request.phase → ∀ q' ∈ p.ahead, p.request.phase.Before q q'
  /-- All calls have returned, but for those that the run is waiting for. -/
  returned : ∀ {i : Nat} {k : Call} {q : Priority}, c.calls[i]? = some k → k.origin = .run id q →
    k.ending? = some .returned ∨ ∃ b, p.barrier? = some b ∧ i ∈ b.pending
  /-- Nobody is suspended before everyone is prepared. -/
  prepare : p.request.phase = .prepare → ∀ {i : Nat} {k : Call} {q : Priority},
    c.calls[i]? = some k → k.origin = .run id q → k.request.phase ≠ .suspend

structure AllInOrder (c : Controller) : Prop where
  known : ∀ {i : Nat} {k : Call} {id : Nat} {q : Priority}, c.calls[i]? = some k →
    k.origin = .run id q → id < c.runs.length
  order : ∀ {id : Nat} {r : Run} {p : PhaseRun}, c.runs[id]? = some r → r.stage = .active p →
    c.InOrder id p

/-! ## The invariant of a run -/

theorem InOrder.returned_of_none (h : c.InOrder id p) (barrier : p.barrier? = none)
    (hk : c.calls[i]? = some k) (ho : k.origin = .run id q) : k.ending? = some .returned := by
  rcases h.returned hk ho with returned | ⟨b, hb, -⟩
  · exact returned
  · rw [barrier] at hb
    cases hb

/-- A phase begins in order if no call was made in it yet and all earlier ones have returned. -/
theorem inOrder_start (request : Request)
    (calls : ∀ {i : Nat} {k : Call} {q : Priority}, c.calls[i]? = some k → k.origin = .run id q →
      k.ending? = some .returned ∧ k.request.phase ≠ request.phase ∧ k.request.phase ≠ .suspend) :
    c.InOrder id (.start request) where
  ahead := request.phase.pairwise_order
  visited hk ho same := absurd same (calls hk ho).2.1
  returned hk ho := .inl (calls hk ho).1
  prepare _ _ _ _ hk ho := (calls hk ho).2.2

theorem InOrder.of_later (h : c.InOrder id p) (later : c.Later d)
    (old : ∀ {i : Nat} {k : Call} {q : Priority}, d.calls[i]? = some k → k.origin = .run id q →
      i < c.calls.length) : d.InOrder id p where
  ahead := h.ahead
  visited hk ho same := by
    obtain ⟨k', hk', hl⟩ := later.call_of_lt hk (old hk ho)
    rw [hl.origin] at ho
    rw [hl.request] at same
    exact h.visited hk' ho same
  returned hk ho := by
    obtain ⟨k', hk', hl⟩ := later.call_of_lt hk (old hk ho)
    rw [hl.origin] at ho
    exact (h.returned hk' ho).imp_left (hl.ending _)
  prepare phase _ _ _ hk ho := by
    obtain ⟨k', hk', hl⟩ := later.call_of_lt hk (old hk ho)
    rw [hl.origin] at ho
    rw [hl.request]
    exact h.prepare phase hk' ho

theorem InOrder.goOn (h : c.InOrder id p) (calls : d.calls = c.calls)
    (request : p'.request = p.request) (ahead : p'.ahead.Sublist p.ahead)
    (returned : ∀ {i : Nat} {k : Call} {q : Priority}, c.calls[i]? = some k → k.origin = .run id q →
      k.ending? = some .returned ∨ ∃ b, p'.barrier? = some b ∧ i ∈ b.pending) :
    d.InOrder id p' where
  ahead := by
    rw [request]
    exact h.ahead.sublist ahead
  visited hk ho same q' hq' := by
    rw [calls] at hk
    rw [request] at same ⊢
    exact h.visited hk ho same q' (ahead.subset hq')
  returned hk ho := returned (calls ▸ hk) ho
  prepare phase _ _ _ hk ho := by
    rw [calls] at hk
    rw [request] at phase
    exact h.prepare phase hk ho

/-- The run calls the next group: what it has called before has returned. -/
theorem InOrder.launch (h : c.InOrder id p) {ms : List Activity} {rest : List Priority} {t : Token}
    (barrier : p.barrier? = none) (ahead : p.ahead = q :: rest) :
    (c.launch id r p q ms rest).InOrder id
      (p.await ⟨q, t, List.range' c.calls.length ms.length⟩ rest) where
  ahead := by
    have sorted := h.ahead
    rw [ahead, List.pairwise_cons] at sorted
    exact sorted.2
  visited hk ho same q' hq' := by
    have sorted := h.ahead
    rw [ahead, List.pairwise_cons] at sorted
    rcases call_of_launch hk with old | ⟨-, origin, -, -⟩
    · refine h.visited old ho same q' ?_
      rw [ahead]
      exact List.mem_cons_of_mem _ hq'
    · rw [origin] at ho
      cases ho
      exact sorted.1 q' hq'
  returned hk ho := by
    rcases call_of_launch hk with old | ⟨pending, -, -, -⟩
    · exact .inl (h.returned_of_none barrier old ho)
    · exact .inr ⟨_, rfl, pending⟩
  prepare phase _ _ _ hk ho := by
    rcases call_of_launch hk with old | ⟨-, -, request, -⟩
    · exact h.prepare phase old ho
    · rw [request, show p.request.phase = .prepare from phase]
      decide

/-- **A move keeps the order**, also that of the next phase when it goes on to it. -/
theorem Move.inOrder (move : c.Move id r p x (.active p') d) (h : c.InOrder id p) :
    d.InOrder id p' := by
  cases move with
  | passedBarrier b live barrier done =>
    refine h.goOn rfl rfl (List.Sublist.refl _) fun hk ho => ?_
    rcases h.returned hk ho with returned | ⟨b', hb', pending⟩
    · exact .inl returned
    · rw [barrier] at hb'
      cases hb'
      rw [done] at pending
      cases pending
  | passedGroup q rest live barrier ahead empty =>
    refine h.goOn rfl rfl ?_ fun hk ho => .inl (h.returned_of_none barrier hk ho)
    rw [ahead]
    exact List.sublist_cons_self q rest
  | launched q rest live barrier ahead inhabited => exact h.launch barrier ahead
  | prepared context barrier ahead request may =>
    refine inOrder_start _ fun hk ho => ?_
    have phase : p.request.phase = .prepare := by rw [request]; rfl
    have unsuspended := h.prepare phase hk ho
    exact ⟨h.returned_of_none barrier hk ho, unsuspended, unsuspended⟩
  | succeeded call b k live barrier pending made ending =>
    refine h.goOn rfl rfl (List.Sublist.refl _) fun {i k' q} hk ho => ?_
    rcases h.returned hk ho with returned | ⟨b', hb', pending'⟩
    · exact .inl returned
    · by_cases same : i = call
      · subst same
        rw [made] at hk
        cases hk
        exact .inl ending
      · refine .inr ⟨{ b' with pending := b'.pending.erase call }, ?_, ?_⟩
        · simp [PhaseRun.succeed, hb']
        · exact (List.mem_erase_of_ne same).2 pending'

/-! ## The invariant of a controller -/

theorem allInOrder_of_new (new : c.New) : c.AllInOrder := by
  have hr := new.runs
  obtain ⟨config, listeners, rfl⟩ := new
  constructor
  · intro i k id q hk
    simp [create] at hk
  · intro id r p run
    rw [hr] at run
    simp at run

theorem Step.lt_of_call (hs : Step c x d) (h : c.AllInOrder) (hk : d.calls[i]? = some k)
    (ho : k.origin = .run id q) : id < c.runs.length := by
  by_cases hlt : i < c.calls.length
  · obtain ⟨k', hk', hl⟩ := hs.later.call_of_lt hk hlt
    rw [hl.origin] at ho
    exact h.known hk' ho
  · obtain ⟨r, p, rest, run, -⟩ := hs.newCall hk ho (Nat.le_of_not_lt hlt)
    exact (List.getElem?_eq_some_iff.1 run).1

theorem Step.lt_of_stays (hs : Step c x d) (before : c.runs[id]? = some r)
    (after : d.runs[id]? = some r) (hk : d.calls[i]? = some k) (ho : k.origin = .run id q) :
    i < c.calls.length := by
  by_contra hlt
  obtain ⟨r', p, rest, run, active, -, barrier, -, rfl⟩ :=
    hs.newCall hk ho (Nat.le_of_not_lt hlt)
  -- The launch has left the run at a barrier where there was none.
  rcases run_of_setStage run rfl after with ⟨-, moved⟩ | ⟨ne, -⟩
  · rw [before] at run
    cases run
    rw [moved] at active
    have same := RunStage.active.inj active
    rw [← same] at barrier
    cases barrier
  · exact ne rfl

theorem Step.allInOrder (hs : Step c x d) (h : c.AllInOrder) : d.AllInOrder where
  known hk ho := Nat.lt_of_lt_of_le (hs.lt_of_call h hk ho) hs.later.length_runs
  order {id s p'} after active' := by
    by_cases hlt : id < c.runs.length
    · obtain ⟨r, before, -⟩ := hs.later.run_of_lt after hlt
      by_cases same : s = r
      · subst same
        exact (h.order before active').of_later hs.later (hs.lt_of_stays before after)
      · obtain ⟨p, stage, active, rfl, move⟩ := hs.move_of_ne before after same
        cases active'
        exact move.inOrder (h.order before active)
    · obtain ⟨rfl, starts⟩ := hs.newRun after (Nat.le_of_not_lt hlt)
      cases starts <;> cases active' <;>
        exact inOrder_start _ fun hk ho => absurd (hs.lt_of_call h hk ho) hlt

/-- **The invariant holds after every history of a new controller.** -/
theorem allInOrder_after (new : c₀.New) (history : List Action) : (c₀.after history).AllInOrder :=
  after_induction (allInOrder_of_new new) (fun hs h => hs.allInOrder h) history

/-- **Groups are called in order, and each waits for those before it.** Take any call that an action
makes for a run. All calls made by this action are made for the same run, to members of one group,
with one request. All calls made earlier for the run have returned, those of the prepare phase
before the first call to suspend among them; and those made in the same phase were made to groups
that the phase visits before this one: ascending to prepare and to suspend, descending to resume. -/
theorem groups_in_order (config : Config) (listeners : List Listener) (history : List Action)
    (x : Action) (j : Nat) (n : Call) (id : Nat) (q : Priority)
    (call : (((create config listeners).after history).step x).calls[j]? = some n)
    (isNew : ((create config listeners).after history).calls.length ≤ j)
    (origin : n.origin = .run id q) :
    let c := (create config listeners).after history
    (∀ (l : Nat) (m : Call), c.calls.length ≤ l → (c.step x).calls[l]? = some m →
      m.origin = .run id q ∧ m.request = n.request ∧ m.activity ∈ c.registry.members q) ∧
    (∀ (i : Nat) (k : Call) (p : Priority), c.calls[i]? = some k → k.origin = .run id p →
      k.ending? = some .returned ∧
      (k.request.phase = n.request.phase → n.request.phase.Before p q)) := by
  intro c
  have h : c.AllInOrder := allInOrder_after (new_create config listeners) history
  obtain ⟨r, p, rest, run, active, -, barrier, ahead, launch⟩ :=
    (step_spec c x).newCall call origin isNew
  have order := h.order run active
  rw [launch] at call ⊢
  obtain ⟨-, -, request, -⟩ := newCall_of_launch call isNew
  refine ⟨fun l m hl hm => ?_, fun i k p' hk ho => ?_⟩
  · obtain ⟨-, mOrigin, mRequest, member⟩ := newCall_of_launch hm hl
    exact ⟨mOrigin, mRequest.trans request.symm, member⟩
  · refine ⟨order.returned_of_none barrier hk ho, fun same => ?_⟩
    rw [request] at same ⊢
    refine order.visited hk ho same q ?_
    rw [ahead]
    exact List.mem_cons_self

/-- The second group is called when the first one has prepared. -/
theorem groups_in_order_second :
    let c := (create { requestedState := .running } []).after
      [.register ⟨"b", "b"⟩ 1, .register ⟨"a", "a"⟩ 0, .suspend {}, .turn 0, .finish 0 .returned,
        .collect 0 0, .turn 0]
    ∃ k n, c.calls[0]? = some k ∧ (c.step (.turn 0)).calls[1]? = some n ∧
      k.ending? = some .returned ∧ n.request.phase.Before ⟨0, by decide⟩ ⟨1, by decide⟩ := by
  intro c
  have first : c.calls[0]? = some ⟨⟨"a", "a"⟩, .prepare {}, .child (.child (.attempt 1) 0) 0,
    .run 0 ⟨0, by decide⟩, some .returned⟩ := by decide
  have second : (c.step (.turn 0)).calls[1]? = some ⟨⟨"b", "b"⟩, .prepare {},
    .child (.child (.attempt 1) 1) 1, .run 0 ⟨1, by decide⟩, none⟩ := by decide
  have isNew : c.calls.length ≤ 1 := by decide
  have h := (groups_in_order _ _ _ _ 1 _ 0 _ second isNew rfl).2 0 _ _ first rfl
  exact ⟨_, _, first, second, h.1, h.2 rfl⟩

end Controller

end Quiesce
