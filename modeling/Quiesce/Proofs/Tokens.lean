import Quiesce.Proofs.PhaseProgress
import Quiesce.Proofs.Resolution
/-!
# Whom a cancellation reaches

The tokens form a tree of three levels: a run has a token, each group that it calls has one under
that, and each call has one under that of its group; a late registration's call has a token outside
the tree. Two calls have the same group token exactly if they were made at the same barrier
(`Issued.group`), and the only tokens ever cancelled are those of attempts and those of groups that
failed (`cancelled_cases`). So a call is advised to give up exactly if its run is cancelled or its
own group has failed (`token_cancelled_iff`). A resume run has a token that nobody cancels, and so
has a late registration.
-/

namespace Quiesce

/-- The calls were made at the same barrier: for the same run, in the same phase and group. -/
def Call.Together (k l : Call) : Prop :=
  k.origin = l.origin ∧ k.request.phase = l.request.phase

theorem Call.Together.symm {k l : Call} (h : k.Together l) : l.Together k :=
  ⟨h.1.symm, h.2.symm⟩

theorem Run.token_ne_child (r : Run) (id : Nat) (t : Token) (i : Nat) : r.token id ≠ .child t i := by
  unfold Run.token
  cases r.purpose <;> simp

theorem Call.Later.together {k k' l l' : Call} (hk : k.Later k') (hl : l.Later l') :
    k'.Together l' ↔ k.Together l := by
  rw [Together, Together, hk.origin, hk.request, hl.origin, hl.request]

namespace Controller

variable {c d c₀ : Controller} {x : Action} {history : List Action} {id i j : Nat} {r s : Run}
  {p : PhaseRun} {k l : Call} {q : Priority} {phase : Phase} {f : Failure} {t g g' : Token}

/-- How the calls were given their tokens. -/
structure Issued (c : Controller) : Prop where
  late : ∀ {i : Nat} {k : Call} {q : Priority}, c.calls[i]? = some k → k.origin = .late q →
    k.token = .late i
  /-- The group's token bears the number of a call that was made no later. -/
  member : ∀ {i : Nat} {k : Call} {id : Nat} {q : Priority}, c.calls[i]? = some k →
    k.origin = .run id q → ∃ r base, c.runs[id]? = some r ∧ base ≤ i ∧
      k.token = .child (.child (r.token id) base) i
  /-- Calls share the token of their group exactly if they were made together. -/
  group : ∀ {i j : Nat} {k l : Call} {g g' : Token}, c.calls[i]? = some k → c.calls[j]? = some l →
    k.token = .child g i → l.token = .child g' j → (g = g' ↔ k.Together l)

/-! ## How tokens are given -/

theorem Step.newToken (hs : Step c x d) (made : d.calls[i]? = some k) (isNew : c.calls.length ≤ i) :
    (∃ q, k.origin = .late q ∧ k.token = .late i) ∨
      ∃ id r p q rest, x = .turn id ∧ c.runs[id]? = some r ∧ r.stage = .active p ∧
        p.ahead = q :: rest ∧ k.origin = .run id q ∧ k.request = p.request ∧
        k.token = .child (.child (r.token id) c.calls.length) i := by
  have len : i < d.calls.length := (List.getElem?_eq_some_iff.1 made).1
  cases hs with
  | lateRegistered a level p valid untracked notRunning =>
    have last : i = c.calls.length := by simp at len; omega
    subst last
    simp at made
    exact .inl ⟨p, made ▸ ⟨rfl, rfl⟩⟩
  | moved id r p stage run active move =>
    cases move with
    | launched q rest live barrier ahead inhabited =>
      obtain ⟨-, origin, request, -⟩ := newCall_of_launch made isNew
      exact .inr ⟨id, r, p, q, rest, rfl, run, active, ahead, origin, request,
        token_of_launch made isNew⟩
    | _ => simp [resolve, fail] at len; omega
  | idle x why => omega
  | _ => simp [finish] at len; omega

/-- A call that is made later has another group token, and is made apart. -/
theorem Step.apart (hs : Step c x d) (h : c.Issued) (order : c.AllInOrder)
    (old : c.calls[i]? = some k) (made : d.calls[j]? = some l) (isNew : c.calls.length ≤ j)
    (hk : k.token = .child g i) (hl : l.token = .child g' j) : g ≠ g' ∧ ¬ k.Together l := by
  have lt : i < c.calls.length := (List.getElem?_eq_some_iff.1 old).1
  rcases hs.newToken made isNew with ⟨q, -, token⟩ |
    ⟨id, r, p, q, rest, -, run, active, ahead, origin, request, token⟩
  · rw [token] at hl
    cases hl
  · rw [token] at hl
    cases hl
    constructor
    · rintro rfl
      cases from' : k.origin with
      | late q' =>
        rw [h.late old from'] at hk
        cases hk
      | run id' q' =>
        obtain ⟨r', base, -, le, token'⟩ := h.member old from'
        rw [token', Token.child.injEq, Token.child.injEq] at hk
        omega
    · rintro ⟨same, asks⟩
      -- The group of the new call was still ahead, and those called before are not.
      rw [origin] at same
      rw [request] at asks
      have before := (order.order run active).visited old same asks q
        (by rw [ahead]; exact List.mem_cons_self)
      exact before.ne rfl

/-- Calls that are made at once share the token of their group. -/
theorem Step.alike (hs : Step c x d) (hi : d.calls[i]? = some k) (newi : c.calls.length ≤ i)
    (hj : d.calls[j]? = some l) (newj : c.calls.length ≤ j) (hk : k.token = .child g i)
    (hl : l.token = .child g' j) : g = g' ∧ k.Together l := by
  rcases hs.newToken hi newi with ⟨q, -, token⟩ |
    ⟨id, r, p, q, rest, turn, run, active, ahead, origin, request, token⟩
  · rw [token] at hk
    cases hk
  · rcases hs.newToken hj newj with ⟨q', -, token'⟩ |
      ⟨id', r', p', q', rest', turn', run', active', ahead', origin', request', token'⟩
    · rw [token'] at hl
      cases hl
    · cases turn.symm.trans turn'
      cases run.symm.trans run'
      cases active.symm.trans active'
      cases ahead.symm.trans ahead'
      cases token.symm.trans hk
      cases token'.symm.trans hl
      exact ⟨rfl, origin.trans origin'.symm, by rw [request, request']⟩

theorem Step.issued (hs : Step c x d) (h : c.Issued) (order : c.AllInOrder) : d.Issued where
  late {i k q} made origin := by
    by_cases old : i < c.calls.length
    · obtain ⟨k', made', kept⟩ := hs.later.call_of_lt made old
      rw [kept.token]
      exact h.late made' (kept.origin ▸ origin)
    · rcases hs.newToken made (Nat.le_of_not_lt old) with ⟨q', -, token⟩ |
        ⟨id, r, p, q', rest, -, -, -, -, origin', -⟩
      · exact token
      · rw [origin] at origin'
        cases origin'
  member {i k id q} made origin := by
    by_cases old : i < c.calls.length
    · obtain ⟨k', made', kept⟩ := hs.later.call_of_lt made old
      obtain ⟨r, base, run, le, token⟩ := h.member made' (kept.origin ▸ origin)
      obtain ⟨s, run', hl⟩ := hs.later.runs run
      exact ⟨s, base, run', le, by rw [kept.token, token, hl.token_eq]⟩
    · have isNew := Nat.le_of_not_lt old
      rcases hs.newToken made isNew with ⟨q', origin', -⟩ |
        ⟨id', r, p, q', rest, -, run, -, -, origin', -, token⟩
      · rw [origin] at origin'
        cases origin'
      · rw [origin] at origin'
        cases origin'
        obtain ⟨s, run', hl⟩ := hs.later.runs run
        exact ⟨s, c.calls.length, run', isNew, by rw [token, hl.token_eq]⟩
  group {i j k l g g'} hi hj hk hl := by
    by_cases oldi : i < c.calls.length
    · obtain ⟨k', hi', keptk⟩ := hs.later.call_of_lt hi oldi
      by_cases oldj : j < c.calls.length
      · obtain ⟨l', hj', keptl⟩ := hs.later.call_of_lt hj oldj
        rw [keptk.together keptl]
        exact h.group hi' hj' (keptk.token ▸ hk) (keptl.token ▸ hl)
      · obtain ⟨ne, apart⟩ := hs.apart h order hi' hj (Nat.le_of_not_lt oldj)
          (keptk.token ▸ hk) hl
        rw [keptk.together (.refl l)]
        exact iff_of_false ne apart
    · by_cases oldj : j < c.calls.length
      · obtain ⟨l', hj', keptl⟩ := hs.later.call_of_lt hj oldj
        obtain ⟨ne, apart⟩ := hs.apart h order hj' hi (Nat.le_of_not_lt oldi)
          (keptl.token ▸ hl) hk
        refine iff_of_false ne.symm fun same => apart ?_
        exact (keptl.together (.refl k)).1 same.symm
      · obtain ⟨same, together⟩ :=
          hs.alike hi (Nat.le_of_not_lt oldi) hj (Nat.le_of_not_lt oldj) hk hl
        exact iff_of_true same together

theorem issued_after (new : c₀.New) (history : List Action) : (c₀.after history).Issued := by
  have start : c₀.Issued ∧ c₀.AllInOrder := by
    refine ⟨?_, allInOrder_of_new new⟩
    obtain ⟨config, listeners, rfl⟩ := new
    constructor <;> simp [create]
  exact (after_induction (P := fun c => c.Issued ∧ c.AllInOrder) start
    (fun hs h => ⟨hs.issued h.1 h.2, hs.allInOrder h.2⟩) history).1

theorem purpose_of_call (new : c₀.New) (made : (c₀.after history).calls[i]? = some k)
    (origin : k.origin = .run id q) :
    ∃ r, (c₀.after history).runs[id]? = some r ∧ r.purpose = k.request.purpose := by
  obtain ⟨before, rest, rfl, ⟨r, ahead, run, active, -⟩, -⟩ := reaches_of_call new made origin
  have grow := later_after (c₀.after before) (.turn id :: rest)
  rw [← after_append] at grow
  obtain ⟨s, run', hl⟩ := grow.runs run
  exact ⟨s, run', hl.purpose.trans ((coherent_after new before).asks run active)⟩

theorem generation_lt_of_suspend (new : c₀.New) (run : (c₀.after history).runs[i]? = some r)
    (run' : (c₀.after history).runs[j]? = some s) {context : SuspendContext}
    (suspend : s.purpose = .suspend context) (lt : i < j) : r.generation < s.generation := by
  obtain ⟨earlier, x, later, t, rfl, rfl, starts, kept⟩ := started new run'
  rw [after_append] at run
  obtain ⟨u, run, kept'⟩ := (later_after (c₀.after earlier) (x :: later)).run_of_lt run lt
  have le := generation_le new run
  rw [kept.generation, kept'.generation]
  cases starts with
  | suspend context' running => exact Nat.lt_succ_of_le le
  | resume context' notRunning =>
    have resume : s.purpose = .resume context' := kept.purpose
    rw [suspend] at resume
    cases resume

theorem eq_of_generation (new : c₀.New) (run : (c₀.after history).runs[i]? = some r)
    (run' : (c₀.after history).runs[j]? = some s) {context context' : SuspendContext}
    (suspend : r.purpose = .suspend context) (suspend' : s.purpose = .suspend context')
    (same : r.generation = s.generation) : i = j := by
  rcases Nat.lt_trichotomy i j with lt | eq | lt
  · have := generation_lt_of_suspend new run run' suspend' lt
    omega
  · exact eq
  · have := generation_lt_of_suspend new run' run suspend lt
    omega

/-! ## How tokens are cancelled -/

/-- An action cancels the token of an attempt, or that of a group of which a member is seen to have
failed. -/
theorem Step.newCancelled (hs : Step c x d) (ht : t ∈ d.cancelled) (isNew : t ∉ c.cancelled) :
    (∃ n, t = .attempt n) ∨ ∃ id r p b i f, c.runs[id]? = some r ∧ r.stage = .active p ∧
      p.barrier? = some b ∧ i ∈ b.pending ∧ b.token = t ∧ f.priority = b.priority ∧
      c.Returns id p.request.phase x (.failed f) := by
  cases hs with
  | resuming | reset | cancelled =>
    rcases (mem_cancelled_cancelToken c _).1 ht with rfl | old
    · exact .inl ⟨_, rfl⟩
    · exact absurd old isNew
  | moved id r p stage run active move =>
    cases move with
    | failed call b k ending e live barrier pending made ended error =>
      rcases (mem_cancelled_cancelToken c _).1 ht with rfl | old
      · exact .inr ⟨id, r, p, b, call, _, run, active, barrier, pending, rfl, rfl,
          .failed r p b call k ending e run active rfl live barrier pending made ended error⟩
      · exact absurd old isNew
    | _ => exact absurd ht isNew
  | _ => exact absurd ht isNew

/-- A cancelled token is that of an attempt, or that of a group which has failed. -/
theorem cancelled_cases (new : c₀.New) (ht : t ∈ (c₀.after history).cancelled) :
    (∃ n, t = .attempt n) ∨ ∃ (id : Nat) (f : Failure) (i : Nat) (k : Call),
      (c₀.after history).calls[i]? = some k ∧ k.origin = .run id f.priority ∧
      k.token = .child t i ∧ c₀.ReturnsIn id k.request.phase history (.failed f) := by
  induction history using List.reverseRecOn with
  | nil =>
    obtain ⟨config, listeners, rfl⟩ := new
    cases ht
  | append_singleton h x ih =>
    rw [after_concat] at ht ⊢
    have hs := step_spec (c₀.after h) x
    by_cases old : t ∈ (c₀.after h).cancelled
    · refine (ih old).imp_right ?_
      rintro ⟨id, f, i, k, made, origin, token, returned⟩
      obtain ⟨l, made', kept⟩ := hs.later.calls made
      exact ⟨id, f, i, l, made', kept.origin.trans origin, kept.token.trans token,
        kept.request ▸ returned.concat x⟩
    · refine (hs.newCancelled ht old).imp_right ?_
      rintro ⟨id, r, p, b, i, f, run, active, barrier, pending, rfl, priority, returns⟩
      obtain ⟨k, made, origin, request, token⟩ := awaited new run active barrier pending
      obtain ⟨l, made', kept⟩ := hs.later.calls made
      refine ⟨id, f, i, l, made', ?_, kept.token.trans token, h, x, [], rfl, ?_⟩
      · rw [kept.origin, origin, priority]
      · rw [kept.request, request]
        exact returns

/-- A token that derives from no other and is no attempt's is cancelled by nothing. -/
theorem Step.notMem_cancelled (hs : Step c x d) (h : c.Coherent) (apart : ∀ n, t ≠ .attempt n)
    (underived : ∀ g i, t ≠ .child g i) (before : t ∉ c.cancelled) : t ∉ d.cancelled := by
  intro ht
  rcases hs.newCancelled ht before with ⟨n, attempt⟩ |
    ⟨id, r, p, b, i, f, run, active, barrier, -, token, -⟩
  · exact apart n attempt
  · obtain ⟨j, group⟩ := h.group run active barrier
    exact underived _ _ (token.symm.trans group)

theorem notMem_cancelled (new : c₀.New) (apart : ∀ n, t ≠ .attempt n)
    (underived : ∀ g i, t ≠ .child g i) : t ∉ (c₀.after history).cancelled := by
  induction history using List.reverseRecOn with
  | nil =>
    obtain ⟨config, listeners, rfl⟩ := new
    simp [create]
  | append_singleton h x ih =>
    rw [after_concat]
    exact (step_spec _ x).notMem_cancelled (coherent_after new h) apart underived ih

theorem isCancelled_late (new : c₀.New) (i : Nat) : (c₀.after history).isCancelled (.late i) = false := by
  have absent : Token.late i ∉ (c₀.after history).cancelled :=
    notMem_cancelled new (by simp) (by simp)
  simpa [isCancelled, Token.cancelledBy] using absent

theorem isCancelled_run (new : c₀.New) (id : Nat) : (c₀.after history).isCancelled (.run id) = false := by
  have absent : Token.run id ∉ (c₀.after history).cancelled :=
    notMem_cancelled new (by simp) (by simp)
  simpa [isCancelled, Token.cancelledBy] using absent

/-- The call's own token is not cancelled by itself. -/
theorem token_notMem_cancelled (new : c₀.New) (r : Run) (id base i : Nat) :
    Token.child (.child (r.token id) base) i ∉ (c₀.after history).cancelled := by
  intro ht
  rcases cancelled_cases new ht with ⟨n, attempt⟩ | ⟨id', f, j, l, made, origin, token, -⟩
  · cases attempt
  · obtain ⟨r', base', -, -, token'⟩ := (issued_after new history).member made origin
    rw [token, Token.child.injEq, Token.child.injEq] at token'
    exact r'.token_ne_child _ _ _ token'.1.1.symm

/-- With a member that is seen to fail the group's token is cancelled. -/
theorem Returns.cancels (h : c.Returns id phase x (.failed f)) :
    ∃ r p b i, c.runs[id]? = some r ∧ r.stage = .active p ∧ p.request.phase = phase ∧
      p.barrier? = some b ∧ b.priority = f.priority ∧ i ∈ b.pending ∧
      b.token ∈ (c.step x).cancelled := by
  cases h with
  | failed r p b call k ending e run active asks live barrier pending made ended error =>
    refine ⟨r, p, b, call, run, active, asks, barrier, rfl, pending, ?_⟩
    rw [step_collect_eq run active live barrier pending made ended, error]
    simp [fail, resolve]

theorem group_cancelled (new : c₀.New) (returned : c₀.ReturnsIn id phase history (.failed f))
    (made : (c₀.after history).calls[i]? = some k) (origin : k.origin = .run id f.priority)
    (asks : k.request.phase = phase) (token : k.token = .child g i) :
    g ∈ (c₀.after history).cancelled := by
  obtain ⟨before, x, later, rfl, returns⟩ := returned
  obtain ⟨r, p, b, j, run, active, asks', barrier, priority, pending, cancelled⟩ := returns.cancels
  obtain ⟨l, made', origin', request, token'⟩ := awaited new run active barrier pending
  have grow := later_after (c₀.after before) (x :: later)
  rw [← after_append] at grow
  obtain ⟨m, made'', kept⟩ := grow.calls made'
  have together : k.Together m := by
    refine ⟨?_, ?_⟩
    · rw [origin, kept.origin, origin', priority]
    · rw [asks, kept.request, request, asks']
  have same := ((issued_after new _).group made made'' token (kept.token.trans token')).2 together
  rw [same, after_append, after_cons]
  exact (later_after _ later).cancelled cancelled

theorem isCancelled_call (new : c₀.New) {base : Nat} (made : (c₀.after history).calls[i]? = some k)
    (origin : k.origin = .run id q) (token : k.token = .child (.child (r.token id) base) i) :
    (c₀.after history).isCancelled k.token = true ↔
      (c₀.after history).isCancelled (r.token id) = true ∨
        ∃ f, f.priority = q ∧ c₀.ReturnsIn id k.request.phase history (.failed f) := by
  rw [token, isCancelled, isCancelled, Token.cancelledBy_child, Token.cancelledBy_child]
  constructor
  · rintro (own | group | run)
    · exact absurd own (token_notMem_cancelled new r id base i)
    · rcases cancelled_cases new group with ⟨n, attempt⟩ |
        ⟨id', f, j, l, made', origin', token', returned⟩
      · cases attempt
      · obtain ⟨same, asks⟩ :=
          ((issued_after new history).group made made' token token').1 rfl
        rw [origin, origin'] at same
        cases same
        exact .inr ⟨f, rfl, asks ▸ returned⟩
    · exact .inl run
  · rintro (run | ⟨f, rfl, returned⟩)
    · exact .inr (.inr run)
    · exact .inr (.inl (group_cancelled new returned made origin rfl token))

/-! ## The law -/

/-- **A cancellation reaches exactly the calls that nobody waits for any more.** The token of a late
registration's call is never cancelled. The token of a call that a run makes in one of its phases is
cancelled exactly if the token of the run is, or the phase has returned with the failure of a member
of the same group and the run is resolved with it; the token of every such member is cancelled by
the step at which the phase returns. A run that prepares and suspends has the token of its own
attempt, which no other attempt shares; a resume run has one that nobody cancels. -/
theorem token_cancelled_iff (config : Config) (listeners : List Listener) (history : List Action)
    (i : Nat) (k : Call) (made : ((create config listeners).after history).calls[i]? = some k) :
    let c₀ := create config listeners
    let c := c₀.after history
    (∀ q, k.origin = .late q → c.isCancelled k.token = false) ∧
    ∀ id q, k.origin = .run id q → ∃ r, c.runs[id]? = some r ∧
      (c.isCancelled k.token = true ↔ c.isCancelled (r.token id) = true ∨
        ∃ f, f.priority = q ∧ c₀.ReturnsIn id k.request.phase history (.failed f) ∧
          c.outcome? (.run id) = some (.error (.ofPhase k.request.phase f.error))) ∧
      (∀ x f, c.Returns id k.request.phase x (.failed f) → f.priority = q →
        (c.step x).isCancelled k.token = true) ∧
      (k.request.phase ≠ .resume → r.token id = .attempt r.generation ∧
        ∃ context, r.purpose = .suspend context ∧
          ∀ j s context', c.runs[j]? = some s → s.purpose = .suspend context' →
            s.generation = r.generation → j = id) ∧
      (k.request.phase = .resume → r.token id = .run id ∧ c.isCancelled (r.token id) = false) := by
  intro c₀ c
  have new : c₀.New := new_create config listeners
  have issued : c.Issued := issued_after new history
  constructor
  · intro q origin
    rw [issued.late made origin]
    exact isCancelled_late new i
  · intro id q origin
    obtain ⟨r, base, run, -, token⟩ := issued.member made origin
    obtain ⟨r', run', purpose⟩ := purpose_of_call new made origin
    rw [run] at run'
    cases run'
    refine ⟨r, run, ?_, ?_, ?_, ?_⟩
    · rw [isCancelled_call new made origin token]
      refine or_congr_right (exists_congr fun f => and_congr_right fun _ => ?_)
      exact ⟨fun returned => ⟨returned, returned.outcome⟩, And.left⟩
    · rintro x f returns rfl
      obtain ⟨l, made', kept⟩ := (step_spec c x).later.calls made
      rw [← after_concat] at made'
      have returned : c₀.ReturnsIn id k.request.phase (history ++ [x]) (.failed f) :=
        ⟨history, x, [], rfl, returns⟩
      have group := group_cancelled new returned made' (kept.origin.trans origin)
        (by rw [kept.request]) (kept.token.trans token)
      rw [after_concat] at group
      rw [token, isCancelled, Token.cancelledBy_child, Token.cancelledBy_child]
      exact .inr (.inl group)
    · intro suspends
      obtain ⟨context, suspend⟩ : ∃ context, r.purpose = .suspend context := by
        cases request : k.request with
        | prepare context | suspend context => exact ⟨context, by rw [purpose, request]; rfl⟩
        | resume context => rw [request] at suspends; exact absurd rfl suspends
      exact ⟨Run.token_of_suspend suspend id, context, suspend,
        fun j s context' run' suspend' same => eq_of_generation new run' run suspend' suspend same⟩
    · intro resumes
      have own : r.token id = .run id := by
        cases request : k.request with
        | prepare context | suspend context => rw [request] at resumes; cases resumes
        | resume context => simp [Run.token, purpose, request, Request.purpose]
      rw [own]
      exact ⟨rfl, isCancelled_run new id⟩

/-- Of two members called together one fails: the other one is advised to give up. -/
theorem token_cancelled_iff_sibling :
    let c₀ := create { requestedState := .running } []
    let history : List Action := [.register ⟨"a", "a"⟩ 0, .register ⟨"b", "b"⟩ 0, .suspend {},
      .turn 0, .finish 0 (.failed (.fail "no")), .collect 0 0]
    let c := c₀.after history
    ∃ k f, c.calls[1]? = some k ∧ k.ending? = none ∧ c.isCancelled (.attempt 1) = false ∧
      c₀.ReturnsIn 0 .prepare history (.failed f) ∧ c.isCancelled k.token = true := by
  intro c₀ history c
  have made : c.calls[1]? = some ⟨⟨"b", "b"⟩, .prepare {}, .child (.child (.attempt 1) 0) 1,
    .run 0 .first, none⟩ := by decide
  have returns : (c₀.after history.dropLast).Returns 0 .prepare (.collect 0 0)
      (.failed ⟨"a", .first, .fail "no"⟩) := by
    refine .failed ⟨.suspend {}, 1, .active ⟨.prepare {}, Priority.all.tail,
        some ⟨.first, .child (.attempt 1) 0, [0, 1]⟩⟩⟩ _ _ 0 ⟨⟨"a", "a"⟩, .prepare {},
        .child (.child (.attempt 1) 0) 0, .run 0 .first, some (.failed (.fail "no"))⟩ _ _ ?_ rfl rfl
        ?_ rfl ?_ ?_ rfl rfl <;> decide
  have returned : c₀.ReturnsIn 0 .prepare history (.failed ⟨"a", .first, .fail "no"⟩) :=
    ⟨history.dropLast, .collect 0 0, [], rfl, returns⟩
  obtain ⟨r, -, cancelled, -⟩ := (token_cancelled_iff _ _ history 1 _ made).2 0 .first rfl
  exact ⟨_, _, made, rfl, by decide, returned,
    cancelled.2 (.inr ⟨_, rfl, returned, by decide⟩)⟩

end Controller

end Quiesce
