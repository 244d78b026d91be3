import Mathlib.Algebra.GroupWithZero.Nat
import Quiesce.Proofs.Calls
import Quiesce.Proofs.GroupOrder
/-!
# No run hangs by itself

A controller is *settled* when no run can do anything on its own. A run that has no outcome then
waits at a barrier for a call that has not ended, and for nothing else (`settled_runs_wait`). It has
some call pending there, since otherwise it would go on, and every pending call is one that was made
(`awaited`) and has not ended, since otherwise its end would be collected.

Left to themselves the runs always settle (`exists_settled`), since every move leaves less to be
done (`Move.work_lt`).
-/

namespace Quiesce

/-- A phase run has to wait exactly if it is not cancelled and a call is pending at its barrier. -/
theorem PhaseRun.next_eq_blocked {p : PhaseRun} {cancelled : Bool}
    {members : Priority → List Activity} :
    p.next cancelled members = .blocked ↔
      cancelled = false ∧ ∃ b, p.barrier? = some b ∧ b.pending ≠ [] := by
  unfold next
  cases p.barrier? with
  | some b =>
    by_cases done : b.pending = []
    · cases cancelled <;> simp [done]
    · cases cancelled <;> simp [done]
  | none =>
    cases p.ahead with
    | nil => simp
    | cons q rest =>
      cases cancelled with
      | true => simp
      | false => cases h : members q <;> simp [h]

namespace Controller

variable {c d c₀ : Controller} {x : Action} {history : List Action} {id i : Nat} {r : Run}
  {p : PhaseRun} {b : Barrier} {stage : RunStage} {k : Call} {q : Priority} {a : Activity}

/-- No run can do anything on its own. -/
def Settled (c : Controller) : Prop := ∀ id, c.nextAction? id = none

/-- Run `id` waits at the barrier `b` of its phase `p`. -/
structure WaitsAt (c : Controller) (id : Nat) (r : Run) (p : PhaseRun) (b : Barrier) : Prop where
  active : r.stage = .active p
  barrier : p.barrier? = some b
  uncancelled : c.isCancelled (r.token id) = false
  /-- A call to a member of the group has not ended. -/
  outstanding : ∃ (i : Nat) (k : Call), c.calls[i]? = some k ∧ k.origin = .run id b.priority ∧
    k.request = p.request ∧ k.ending? = none
  /-- Every call of the run has returned, but for such calls of this group. -/
  returned : ∀ (i : Nat) (k : Call) (q : Priority), c.calls[i]? = some k → k.origin = .run id q →
    k.ending? = some .returned ∨
      q = b.priority ∧ k.request = p.request ∧ i ∈ b.pending ∧ k.ending? = none

/-! ## What a run can do -/

theorem move_of_nextAction? (h : c.nextAction? id = some x) :
    ∃ r p stage, c.runs[id]? = some r ∧ r.stage = .active p ∧ c.Move id r p x stage (c.step x) := by
  unfold nextAction? at h
  split at h
  · rename_i possible
    cases h
    refine (step_spec c (.turn id)).move rfl fun why => ?_
    rw [show c.turn? id = none from why] at possible
    cases possible
  · simp only [Option.map_eq_some_iff] at h
    obtain ⟨i, found, rfl⟩ := h
    have possible : (c.collect? id i).isSome = true := by simpa using List.find?_some found
    refine (step_spec c (.collect id i)).move rfl fun why => ?_
    rw [show c.collect? id i = none from why] at possible
    cases possible

theorem nextAction?_eq_none :
    c.nextAction? id = none ↔ c.turn? id = none ∧ ∀ i, c.collect? id i = none := by
  unfold nextAction?
  cases turn : c.turn? id with
  | some d => simp
  | none =>
    simp only [Option.isSome_none, Bool.false_eq_true, if_false, Option.map_eq_none_iff,
      List.find?_eq_none, true_and]
    constructor
    · intro nothing i
      by_contra possible
      obtain ⟨r, p, stage, run, active, move⟩ :=
        (step_spec c (.collect id i)).move rfl possible
      have unresolved := activeRun?_eq_some.2 ⟨run, active⟩
      refine absurd (Option.isSome_iff_ne_none.2 possible) (nothing i ?_)
      -- Only a pending call can be collected.
      generalize c.step (.collect id i) = d at move
      cases move with
      | succeeded _ b k live barrier pending => simpa [unresolved, barrier] using pending
      | failed _ b k ending e live barrier pending => simpa [unresolved, barrier] using pending
    · intro nothing i _
      simp [nothing i]

theorem settled_iff : c.Settled ↔ ∀ id < c.runs.length, c.nextAction? id = none := by
  refine ⟨fun settled id _ => settled id, fun settled id => ?_⟩
  by_cases known : id < c.runs.length
  · exact settled id known
  · cases next : c.nextAction? id with
    | none => rfl
    | some x =>
      obtain ⟨r, p, stage, run, -⟩ := move_of_nextAction? next
      exact absurd (List.getElem?_eq_some_iff.1 run).1 known

instance (c : Controller) : Decidable c.Settled :=
  decidable_of_iff _ settled_iff.symm

/-! ## What a run waits for -/

/-- A run that has no turn waits at a barrier. -/
theorem blocked_of_turn? (run : c.runs[id]? = some r) (active : r.stage = .active p)
    (stays : c.turn? id = none) :
    c.isCancelled (r.token id) = false ∧ ∃ b, p.barrier? = some b ∧ b.pending ≠ [] := by
  have unresolved := activeRun?_eq_some.2 ⟨run, active⟩
  unfold turn? at stays
  simp only [unresolved, Option.bind_eq_bind, Option.bind_some] at stays
  apply PhaseRun.next_eq_blocked.1 (show p.next _ c.registry.members = .blocked from ?_)
  cases next : p.next (c.isCancelled (r.token id)) c.registry.members with
  | blocked => rfl
  | _ =>
    rw [next] at stays
    cases stays

theorem unended_of_collect? (run : c.runs[id]? = some r) (active : r.stage = .active p)
    (uncancelled : c.isCancelled (r.token id) = false) (barrier : p.barrier? = some b)
    (pending : i ∈ b.pending) (made : c.calls[i]? = some k) (stays : c.collect? id i = none) :
    k.ending? = none := by
  have unresolved := activeRun?_eq_some.2 ⟨run, active⟩
  cases ended : k.ending? with
  | none => rfl
  | some e =>
    simp [collect?, unresolved, barrier, uncancelled, pending, made, ended] at stays
    split at stays <;> cases stays

theorem Settled.waitsAt (settled : (c₀.after history).Settled) (new : c₀.New)
    (run : (c₀.after history).runs[id]? = some r) (active : r.stage = .active p) :
    ∃ b, (c₀.after history).WaitsAt id r p b := by
  obtain ⟨turn, collect⟩ := nextAction?_eq_none.1 (settled id)
  obtain ⟨uncancelled, b, barrier, nonempty⟩ := blocked_of_turn? run active turn
  -- Every pending call was made for this group, and has not ended.
  have unended : ∀ i ∈ b.pending, ∃ k, (c₀.after history).calls[i]? = some k ∧
      k.origin = .run id b.priority ∧ k.request = p.request ∧ k.ending? = none := by
    intro i pending
    obtain ⟨k, made, origin, request, -⟩ := awaited new run active barrier pending
    exact ⟨k, made, origin, request,
      unended_of_collect? run active uncancelled barrier pending made (collect i)⟩
  refine ⟨b, active, barrier, uncancelled, ?_, ?_⟩
  · obtain ⟨i, pending⟩ := List.exists_mem_of_ne_nil _ nonempty
    obtain ⟨k, call⟩ := unended i pending
    exact ⟨i, k, call⟩
  · intro i k q made origin
    rcases ((allInOrder_after new history).order run active).returned made origin with
      returned | ⟨b', barrier', pending⟩
    · exact .inl returned
    · rw [barrier] at barrier'
      cases barrier'
      obtain ⟨k', made', origin', request, open'⟩ := unended i pending
      rw [made] at made'
      cases made'
      rw [origin] at origin'
      cases origin'
      exact .inr ⟨rfl, request, pending, open'⟩

theorem call_of_late {level : Nat} (late : (c.registerAt a level).2 = .late i) :
    ∃ p, (c.step (.register a level)).calls[i]? =
      some ⟨a, .suspend c.attempt.context, .late i, .late p, none⟩ := by
  cases valid : Priority.ofLevel level with
  | error e => simp [registerAt, valid] at late
  | ok p =>
    cases untracked : c.registry.priorityOf? a with
    | some q => simp [registerAt, register, valid, untracked] at late
    | none =>
      by_cases running : c.state = .running
      · simp [registerAt, register, valid, untracked, running] at late
      · simp [registerAt, register, valid, untracked, running] at late
        subst late
        refine ⟨p, ?_⟩
        rw [calls_register valid untracked, if_neg running, List.getElem?_concat_length]

theorem waiting_of_late {before rest : List Action} {level : Nat}
    (late : ((c₀.after before).registerAt a level).2 = .late i)
    (pending : (c₀.after (before ++ .register a level :: rest)).registered? (.late i) = none) :
    ∃ k p, (c₀.after (before ++ .register a level :: rest)).calls[i]? = some k ∧ k.activity = a ∧
      k.request = .suspend (c₀.after before).attempt.context ∧ k.origin = .late p ∧
      k.ending? = none := by
  obtain ⟨p, call⟩ := call_of_late late
  rw [after_append, after_cons] at pending ⊢
  obtain ⟨k, made, hl⟩ := (later_after _ rest).calls call
  rw [registered?_late made, Option.map_eq_none_iff] at pending
  exact ⟨k, p, made, hl.activity, hl.request, hl.origin, pending⟩

/-! ## How the runs settle -/

/-- The most moves that it can take to visit these groups: to call the members, to collect each
call, and to pass the barrier. -/
def visits (c : Controller) (qs : List Priority) : Nat :=
  (qs.map fun q => (c.registry.members q).length + 2).sum

/-- The most moves that a phase run can still make before its last one. -/
def workOf (c : Controller) (p : PhaseRun) : Nat :=
  c.visits p.ahead + p.barrier?.elim 0 (fun b => b.pending.length + 1) +
    match p.request with
    | .prepare _ => c.visits Priority.all + 1
    | .suspend _ | .resume _ => 0

/-- The most moves that a run in this stage can still make. -/
def workLeft (c : Controller) : RunStage → Nat
  | .active p => c.workOf p + 1
  | .resolved _ => 0

/-- The most moves that the runs can still make by themselves. -/
def work (c : Controller) : Nat :=
  (c.runs.map fun r => c.workLeft r.stage).sum

theorem Move.workLeft_lt (move : c.Move id r p x stage d) :
    c.workLeft stage < c.workLeft (.active p) := by
  cases move with
  | gaveUp | suspended | resumed | failed => exact Nat.succ_pos _
  | passedBarrier b live barrier done => simp [workLeft, workOf, barrier]
  | passedGroup q rest live barrier ahead empty =>
    simp [workLeft, workOf, visits, barrier, ahead, empty]
  | launched q rest live barrier ahead inhabited =>
    simp [workLeft, workOf, visits, barrier, ahead, PhaseRun.await]
    omega
  | prepared context barrier ahead request may =>
    simp [workLeft, workOf, visits, barrier, ahead, request, PhaseRun.start, Phase.order,
      Request.phase]
  | succeeded call b k live barrier pending made ending =>
    have := List.length_erase_of_mem pending
    have := List.length_pos_of_mem pending
    simp [workLeft, workOf, barrier, PhaseRun.succeed]
    omega

theorem sum_map_modify {α : Type} {g : α → Nat} {f : α → α} {xs : List α} {i : Nat} {a : α}
    (h : xs[i]? = some a) : ((xs.modify i f).map g).sum + g a = (xs.map g).sum + g (f a) := by
  induction xs generalizing i with
  | nil => cases h
  | cons y xs ih =>
    cases i with
    | zero =>
      cases h
      simp
      omega
    | succ i =>
      have := ih h
      simp
      omega

theorem Move.work_lt (move : c.Move id r p x stage d) (run : c.runs[id]? = some r)
    (active : r.stage = .active p) : d.work < c.work := by
  have less := move.workLeft_lt
  have same : d.workLeft = c.workLeft := by
    funext s
    cases s <;> simp [workLeft, workOf, visits, move.registry]
  have sum := sum_map_modify (g := fun r => c.workLeft r.stage)
    (f := fun r => { r with stage }) run
  rw [← active] at less
  dsimp only at sum
  simp only [work, same, move.runs, setStage]
  omega

theorem work_lt (next : c.nextAction? id = some x) : (c.step x).work < c.work := by
  obtain ⟨r, p, stage, run, active, move⟩ := move_of_nextAction? next
  exact move.work_lt run active

/-- Left to themselves, the runs settle. -/
theorem exists_settled (c : Controller) :
    ∃ moves : List Action, (∀ x ∈ moves, x.run?.isSome) ∧ moves.length ≤ c.work ∧
      (c.after moves).Settled := by
  induction h : c.work using Nat.strongRecOn generalizing c with
  | ind n ih =>
    by_cases settled : c.Settled
    · exact ⟨[], by simp, Nat.zero_le _, settled⟩
    · obtain ⟨id, next⟩ := not_forall.1 settled
      obtain ⟨x, next⟩ := Option.ne_none_iff_exists'.1 next
      obtain ⟨r, p, stage, -, -, move⟩ := move_of_nextAction? next
      have less := work_lt next
      obtain ⟨moves, own, short, settled'⟩ := ih _ (h ▸ less) (c.step x) rfl
      refine ⟨x :: moves, ?_, ?_, settled'⟩
      · intro y member
        rcases List.mem_cons.1 member with rfl | member
        · simp [move.run?_eq]
        · exact own y member
      · rw [List.length_cons]
        omega

/-! ## The law -/

/-- **No run hangs by itself.** In a settled controller every run that has no outcome waits in one
group: its token is not cancelled, a call to a member of this group has not ended, and every call
that the run has made has returned or is such a call. So a run has its outcome if it is cancelled,
if all its calls have ended, or if one of them has failed. A late registration that has no result
waits for the activity that it has called to suspend. Whatever comes later, all that the runs can do
on their own leaves them less to do, and leads to a settled controller again. -/
theorem settled_runs_wait (config : Config) (listeners : List Listener) (history : List Action)
    (settled : ((create config listeners).after history).Settled) :
    let c₀ := create config listeners
    let c := c₀.after history
    (∀ id r, c.runs[id]? = some r → r.outcome? = none → ∃ p b, c.WaitsAt id r p b) ∧
    (∀ id r, c.runs[id]? = some r → (c.isCancelled (r.token id) = true ∨
        (∀ (i : Nat) (k : Call) (q : Priority), c.calls[i]? = some k → k.origin = .run id q →
          k.ending? ≠ none) ∨
        (∃ (i : Nat) (k : Call) (q : Priority) (e : Ending), c.calls[i]? = some k ∧
          k.origin = .run id q ∧ k.ending? = some e ∧ e ≠ .returned)) →
      ∃ o, r.outcome? = some o) ∧
    (∀ before a level rest i, history = before ++ .register a level :: rest →
      ((c₀.after before).registerAt a level).2 = .late i → c.registered? (.late i) = none →
      ∃ k p, c.calls[i]? = some k ∧ k.activity = a ∧
        k.request = .suspend (c₀.after before).attempt.context ∧ k.origin = .late p ∧
        k.ending? = none) ∧
    ∀ later, (∀ id x, (c.after later).nextAction? id = some x →
        ((c.after later).step x).work < (c.after later).work) ∧
      ∃ moves : List Action, (∀ x ∈ moves, x.run?.isSome) ∧
        moves.length ≤ (c.after later).work ∧ ((c.after later).after moves).Settled := by
  intro c₀ c
  have new : c₀.New := new_create config listeners
  have waits : ∀ id r, c.runs[id]? = some r → r.outcome? = none → ∃ p b, c.WaitsAt id r p b := by
    intro id r run unresolved
    obtain ⟨p, active⟩ := Run.outcome?_eq_none.1 unresolved
    exact ⟨p, settled.waitsAt new run active⟩
  refine ⟨waits, ?_, ?_, fun later => ⟨fun id x next => work_lt next, exists_settled _⟩⟩
  · intro id r run why
    cases outcome : r.outcome? with
    | some o => exact ⟨o, rfl⟩
    | none =>
      exfalso
      obtain ⟨p, b, waiting⟩ := waits id r run outcome
      rcases why with cancelled | ended | ⟨i, k, q, e, made, origin, failed, ne⟩
      · rw [waiting.uncancelled] at cancelled
        cases cancelled
      · obtain ⟨i, k, made, origin, -, outstanding⟩ := waiting.outstanding
        exact ended i k _ made origin outstanding
      · rcases waiting.returned i k q made origin with returned | ⟨-, -, -, outstanding⟩
        · rw [failed] at returned
          exact ne (Option.some.inj returned)
        · rw [failed] at outstanding
          cases outstanding
  · rintro before a level rest i rfl late pending
    exact waiting_of_late late pending

/-- An attempt waits for its first call, and so does an activity that has registered meanwhile. -/
theorem settled_runs_wait_late :
    let c₀ := create { requestedState := .running } []
    let before : List Action := [.register ⟨"a", "a"⟩ 0, .suspend {}, .turn 0]
    let c := c₀.after (before ++ [.register ⟨"b", "b"⟩ 1])
    c.Settled ∧ (∃ r p b, c.runs[0]? = some r ∧ c.WaitsAt 0 r p b) ∧
      ∃ k p, c.calls[1]? = some k ∧ k.activity = ⟨"b", "b"⟩ ∧ k.request = .suspend {} ∧
        k.origin = .late p ∧ k.ending? = none := by
  intro c₀ before c
  have settled : c.Settled := by decide
  have run : c.runs[0]? = some ⟨.suspend {}, 1, .active ⟨.prepare {}, Priority.all.tail,
    some ⟨.first, .child (.attempt 1) 0, [0]⟩⟩⟩ := by decide
  obtain ⟨waits, -, late, -⟩ := settled_runs_wait { requestedState := .running } [] _ settled
  obtain ⟨p, b, waiting⟩ := waits 0 _ run rfl
  exact ⟨settled, ⟨_, p, b, run, waiting⟩,
    late before ⟨"b", "b"⟩ 1 [] 1 rfl (by decide) (by decide)⟩

end Controller

end Quiesce
