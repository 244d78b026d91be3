import Quiesce.Proofs.PhaseProgress
import Quiesce.Proofs.Settled
/-!
# What a phase means

Members are called at once and return in any order, and a phase looks at one call after another as
they end. Yet what it comes to can be told beforehand, from how each call will end, group after
group (`verdict`): the first group decides that has a member who fails or never returns. This module
proves that every way in which a phase can go (`Follows`) comes to the same (`phase_verdict`).
-/

namespace Quiesce

/-- The members of a group, each with the way in which the call to it will end; some never do. -/
structure FatedGroup where
  priority : Priority
  members : List (Activity × Option Ending)
deriving DecidableEq, Repr

namespace FatedGroup

variable {g : FatedGroup} {f : Failure}

def group (g : FatedGroup) : Group :=
  ⟨g.priority, g.members.map (·.1)⟩

/-- Every member does as asked. -/
def Succeeds (g : FatedGroup) : Prop :=
  ∀ m ∈ g.members, m.2 = some .returned

instance (g : FatedGroup) : Decidable g.Succeeds :=
  inferInstanceAs (Decidable (∀ m ∈ g.members, m.2 = some .returned))

/-- What a phase can report of the members that fail. -/
def failures (g : FatedGroup) : List Failure :=
  g.members.filterMap fun (a, fate) =>
    (fate.bind Ending.error?).map fun e => ⟨a.name, g.priority, e⟩

theorem mem_failures : f ∈ g.failures ↔ ∃ a ending e, (a, some ending) ∈ g.members ∧
    ending.error? = some e ∧ f = ⟨a.name, g.priority, e⟩ := by
  simp only [failures, List.mem_filterMap, Option.map_eq_some_iff, Option.bind_eq_some_iff]
  constructor
  · rintro ⟨⟨a, fate⟩, member, e, ⟨ending, rfl, error⟩, rfl⟩
    exact ⟨a, ending, e, member, error, rfl⟩
  · rintro ⟨a, ending, e, member, error, rfl⟩
    exact ⟨(a, some ending), member, e, ⟨ending, rfl, error⟩, rfl⟩

theorem Succeeds.failures (h : g.Succeeds) : g.failures = [] := by
  rw [List.eq_nil_iff_forall_not_mem]
  intro f member
  obtain ⟨a, ending, e, there, error, -⟩ := mem_failures.1 member
  have returned := h _ there
  cases returned
  cases error

end FatedGroup

/-- What a phase comes to, given by the place of the group that decides. -/
inductive Verdict
  | ok
  | failed (place : Nat)
  /-- A call never returns. -/
  | hangs (place : Nat)
deriving DecidableEq, Repr

/-- The same, with one more group before. -/
def Verdict.later : Verdict → Verdict
  | ok => ok
  | failed place => failed (place + 1)
  | hangs place => hangs (place + 1)

/-- What a phase comes to if it calls group after group and hears of a failure before it waits for
anybody else. -/
def verdict : List FatedGroup → Verdict
  | [] => .ok
  | g :: plan =>
    if g.failures ≠ [] then .failed 0
    else if g.Succeeds then (verdict plan).later
    else .hangs 0

section
variable {plan : List FatedGroup} {i : Nat}

theorem verdict_eq_ok : verdict plan = .ok ↔ ∀ g ∈ plan, g.Succeeds := by
  induction plan with
  | nil => simp [verdict]
  | cons g plan ih =>
    rw [List.forall_mem_cons, ← ih]
    by_cases succeeds : g.Succeeds
    · cases h : verdict plan <;> simp [verdict, succeeds.failures, succeeds, h, Verdict.later]
    · by_cases fails : g.failures = [] <;> simp [verdict, fails, succeeds]

theorem verdict_eq_failed : verdict plan = .failed i ↔
    ∃ g, plan[i]? = some g ∧ g.failures ≠ [] ∧ ∀ g' ∈ plan.take i, g'.Succeeds := by
  induction plan generalizing i with
  | nil => simp [verdict]
  | cons g plan ih =>
    cases i with
    | zero =>
      by_cases fails : g.failures = []
      · by_cases succeeds : g.Succeeds
        · cases h : verdict plan <;> simp [verdict, fails, succeeds, h, Verdict.later]
        · simp [verdict, fails, succeeds]
      · simp [verdict, fails]
    | succ i =>
      have step : (verdict plan).later = .failed (i + 1) ↔ verdict plan = .failed i := by
        cases verdict plan <;> simp [Verdict.later]
      rw [List.take_succ_cons, List.forall_mem_cons, List.getElem?_cons_succ]
      by_cases succeeds : g.Succeeds
      · simp [verdict, succeeds.failures, succeeds, step, ih]
      · by_cases fails : g.failures = [] <;> simp [verdict, fails, succeeds]

theorem verdict_eq_hangs : verdict plan = .hangs i ↔
    ∃ g, plan[i]? = some g ∧ g.failures = [] ∧ ¬ g.Succeeds ∧
      ∀ g' ∈ plan.take i, g'.Succeeds := by
  induction plan generalizing i with
  | nil => simp [verdict]
  | cons g plan ih =>
    cases i with
    | zero =>
      by_cases fails : g.failures = []
      · by_cases succeeds : g.Succeeds
        · cases h : verdict plan <;> simp [verdict, fails, succeeds, h, Verdict.later]
        · simp [verdict, fails, succeeds]
      · simp [verdict, fails]
    | succ i =>
      have step : (verdict plan).later = .hangs (i + 1) ↔ verdict plan = .hangs i := by
        cases verdict plan <;> simp [Verdict.later]
      rw [List.take_succ_cons, List.forall_mem_cons, List.getElem?_cons_succ]
      by_cases succeeds : g.Succeeds
      · simp [verdict, succeeds.failures, succeeds, step, ih]
      · by_cases fails : g.failures = [] <;> simp [verdict, fails, succeeds]

end

namespace Controller

variable {c d : Controller} {x : Action} {history later : List Action} {id i : Nat} {k : Call}
  {p : PhaseRun} {request : Request} {g : FatedGroup} {plan : List FatedGroup} {l : Launch}
  {v : PhaseResult}

/-- The calls of a launch are those to the members of the group, and end in the way that is given.
-/
structure Plays (c : Controller) (g : FatedGroup) (l : Launch) : Prop where
  group : l.group = g.group
  endings : ∀ (j : Nat) (a : Activity) (fate : Option Ending) (k : Call) (e : Ending),
    g.members[j]? = some (a, fate) → c.calls[l.first + j]? = some k → k.ending? = some e →
      fate = some e

/-- In the course of a history the phase that run `id` begins goes by the plan. -/
structure Follows (c : Controller) (id : Nat) (request : Request) (plan : List FatedGroup)
    (history : List Action) : Prop where
  begins : ∃ r, c.runs[id]? = some r ∧
    r.stage = .active ⟨request, plan.map FatedGroup.priority, none⟩
  /-- Each group has the members that the plan gives, when it is reached. -/
  plays : ∀ (i : Nat) (l : Launch) (g : FatedGroup), (c.launches id request.phase history)[i]? = some l →
    plan[i]? = some g → (c.after history).Plays g l
  uncancelled : (c.after history).Uncancelled id

/-- Nothing more happens to the phase: it has returned, or every call that is to end has ended and
the run can do nothing on its own. -/
def Complete (c : Controller) (id : Nat) (request : Request) (plan : List FatedGroup)
    (history : List Action) : Prop :=
  (∃ v, c.ReturnsIn id request.phase history v) ∨
    (∀ (i : Nat) (l : Launch) (g : FatedGroup), (c.launches id request.phase history)[i]? = some l →
      plan[i]? = some g → ∀ (j : Nat) (a : Activity) (e : Ending),
        g.members[j]? = some (a, some e) →
        ∃ k, (c.after history).calls[l.first + j]? = some k ∧ k.ending? = some e) ∧
      (c.after history).nextAction? id = none

/-- The phase fails in the group at this place of its plan. -/
def FailsAt (c : Controller) (id : Nat) (phase : Phase) (history : List Action) (i : Nat) : Prop :=
  (∃ f, c.ReturnsIn id phase history (.failed f)) ∧ (c.reached id phase history).length = i + 1

/-! ## One group -/

theorem Plays.of_later (h : d.Plays g l) (later : c.Later d) : c.Plays g l where
  group := h.group
  endings j a fate k e member made ended := by
    obtain ⟨k', made', kept⟩ := later.calls made
    exact h.endings j a fate k' e member made' (kept.ending e ended)

theorem Plays.mem_calls (h : c.Plays g l) : i ∈ l.calls ↔ ∃ j < g.members.length, i = l.first + j := by
  rw [Launch.mem_calls, h.group]
  simp [FatedGroup.group]

theorem Plays.succeeds (h : c.Plays g l) (returned : ∀ i ∈ l.calls, c.Returned i) :
    g.Succeeds := by
  rintro ⟨a, fate⟩ member
  obtain ⟨j, there⟩ := List.getElem?_of_mem member
  have short := (List.getElem?_eq_some_iff.1 there).1
  obtain ⟨k, made, ended⟩ := returned _ (h.mem_calls.2 ⟨j, short, rfl⟩)
  exact h.endings j a fate k _ there made ended

theorem Plays.call (h : (c.after history).Plays g l)
    (reached : l ∈ c.launches id request.phase history) {j : Nat} {a : Activity}
    {fate : Option Ending} (member : g.members[j]? = some (a, fate)) :
    ∃ k, (c.after history).calls[l.first + j]? = some k ∧ k.activity = a := by
  refine call_of_launches reached ?_
  rw [h.group]
  simp [FatedGroup.group, member]

theorem Plays.failure (h : (c.after history).Plays g l)
    (reached : l ∈ c.launches id request.phase history) (call : i ∈ l.calls)
    (made : (c.after history).calls[i]? = some k) {ending : Ending} {e : ActivityError}
    (ended : k.ending? = some ending) (error : ending.error? = some e) :
    ⟨k.activity.name, l.group.priority, e⟩ ∈ g.failures := by
  obtain ⟨j, short, rfl⟩ := h.mem_calls.1 call
  obtain ⟨⟨a, fate⟩, there⟩ : ∃ m, g.members[j]? = some m := ⟨_, List.getElem?_eq_getElem short⟩
  obtain ⟨k', made', rfl⟩ := h.call reached there
  rw [made] at made'
  cases made'
  obtain rfl := h.endings j _ fate k ending there made ended
  refine FatedGroup.mem_failures.2 ⟨_, ending, e, List.mem_of_getElem? there, error, ?_⟩
  rw [h.group]
  rfl

/-! ## The whole plan -/

theorem Follows.before {before : List Action} (h : c.Follows id request plan (before ++ later)) :
    c.Follows id request plan before := by
  have since : (c.after before).Later (c.after (before ++ later)) := by
    rw [after_append]
    exact later_after _ later
  refine ⟨h.begins, fun i l g there planned => (h.plays i l g ?_ planned).of_later since,
    h.uncancelled.of_later since⟩
  rw [launches_append]
  exact getElem?_of_prefix (List.prefix_append _ _) there

theorem Follows.working (h : c.Follows id request plan history) :
    (∃ v, c.ReturnsIn id request.phase history v) ∨
      ∃ p, (c.after history).Working id (c.launches id request.phase history) p ∧
        p.request = request ∧ plan.map FatedGroup.priority =
          (c.launches id request.phase history).map (·.group.priority) ++ p.ahead := by
  have w : c.Working id [] ⟨request, plan.map FatedGroup.priority, none⟩ :=
    ⟨h.begins, by simp, by rintro b ⟨⟩⟩
  exact w.after history h.uncancelled

theorem Follows.succeeds (h : c.Follows id request plan history) {earlier rest : List Launch}
    (split : c.launches id request.phase history = earlier ++ rest)
    (returned : ∀ l ∈ earlier, ∀ i ∈ l.calls, (c.after history).Returned i) :
    ∀ g ∈ plan.take earlier.length, g.Succeeds := by
  intro g member
  obtain ⟨i, there⟩ := List.getElem?_of_mem member
  rw [List.getElem?_take] at there
  split at there
  · rename_i short
    have launched : (c.launches id request.phase history)[i]? = some earlier[i] := by
      rw [split, List.getElem?_append_left short, List.getElem?_eq_getElem short]
    exact (h.plays i _ g launched there).succeeds (returned _ (List.getElem_mem short))
  · cases there

theorem Follows.exists_group (h : c.Follows id request plan history) {earlier : List Launch}
    (split : c.launches id request.phase history = earlier ++ [l])
    (planned : earlier.length < plan.length) :
    ∃ g, plan[earlier.length]? = some g ∧ (c.after history).Plays g l := by
  refine ⟨plan[earlier.length], List.getElem?_eq_getElem planned, ?_⟩
  refine h.plays earlier.length l _ ?_ (List.getElem?_eq_getElem planned)
  rw [split, List.getElem?_concat_length]

/-- **A phase that returns comes to what its plan says.** -/
theorem Follows.verdict_of_returns (h : c.Follows id request plan history)
    (returns : (c.after history).Returns id request.phase x v) :
    v = .ok ∧ verdict plan = .ok ∧ (c.launches id request.phase history).length = plan.length ∨
      ∃ f i g, v = .failed f ∧ verdict plan = .failed i ∧ plan[i]? = some g ∧ f ∈ g.failures ∧
        (c.launches id request.phase history).length = i + 1 := by
  rcases h.working with ⟨v', returned⟩ | ⟨p, w, asks, ahead⟩
  · exact absurd returns returned.over.not_returns
  obtain ⟨r, run, active⟩ := w.active
  have places := congrArg List.length ahead
  simp only [List.length_map, List.length_append] at places
  cases returns with
  | ok r' p' run' active' _ next =>
    rw [run] at run'
    cases run'
    rw [active] at active'
    cases active'
    obtain ⟨barrier, nothing⟩ := PhaseRun.next_eq_completed.1 next
    rw [nothing, List.length_nil, Nat.add_zero] at places
    have all := h.succeeds (List.append_nil _).symm (w.all_returned barrier)
    rw [← places, List.take_length] at all
    exact .inl ⟨rfl, verdict_eq_ok.2 all, places.symm⟩
  | canceled r' p' run' active' _ next =>
    have cancelled := PhaseRun.cancelled_of_next next
    rw [h.uncancelled r' run'] at cancelled
    cases cancelled
  | failed r' p' b call k ending e run' active' _ live barrier pending made ended error =>
    rw [run] at run'
    cases run'
    rw [active] at active'
    cases active'
    obtain ⟨earlier, l, split, priority, awaited, returned⟩ := w.waits b barrier
    rw [split, List.length_append, List.length_singleton] at places
    obtain ⟨g, there, plays⟩ := h.exists_group split (by omega)
    have reached : l ∈ c.launches id request.phase history := by simp [split]
    have failure := plays.failure reached (awaited call pending) made ended error
    refine .inr ⟨_, earlier.length, g, rfl, verdict_eq_failed.2 ⟨g, there, ?_, ?_⟩, there,
      priority ▸ failure, by simp [split]⟩
    · exact List.ne_nil_of_mem failure
    · exact h.succeeds split returned

/-- **A phase that goes no further hangs in the group that its plan says.** -/
theorem Follows.verdict_of_stuck (h : c.Follows id request plan history)
    (complete : c.Complete id request plan history)
    (silent : ∀ v, ¬ c.ReturnsIn id request.phase history v) :
    ∃ i, verdict plan = .hangs i ∧ (c.launches id request.phase history).length = i + 1 := by
  obtain ⟨v, returned⟩ | ⟨arrived, stuck⟩ := complete
  · exact absurd returned (silent v)
  obtain ⟨v, returned⟩ | ⟨p, w, asks, ahead⟩ := h.working
  · exact absurd returned (silent v)
  obtain ⟨r, run, active⟩ := w.active
  obtain ⟨turn, collect⟩ := nextAction?_eq_none.1 stuck
  obtain ⟨live, b, barrier, nonempty⟩ := blocked_of_turn? run active turn
  obtain ⟨earlier, l, split, -, awaited, returned⟩ := w.waits b barrier
  have places := congrArg List.length ahead
  simp only [List.length_map, List.length_append, split, List.length_singleton] at places
  obtain ⟨g, there, plays⟩ := h.exists_group split (by omega)
  have reached : l ∈ c.launches id request.phase history := by simp [split]
  have last : (c.launches id request.phase history)[earlier.length]? = some l := by
    rw [split, List.getElem?_concat_length]
  -- What is still awaited has not ended, and never does.
  have never : ∀ {j : Nat} {a : Activity} {fate : Option Ending}, g.members[j]? = some (a, fate) →
      l.first + j ∈ b.pending → fate = none := by
    intro j a fate member pending
    obtain ⟨k, made, -⟩ := plays.call reached member
    have unended := unended_of_collect? run active live barrier pending made (collect _)
    cases fate with
    | none => rfl
    | some e =>
      obtain ⟨k', made', ended⟩ := arrived _ l g last there j a e member
      rw [made] at made'
      cases made'
      rw [unended] at ended
      cases ended
  refine ⟨earlier.length, verdict_eq_hangs.2 ⟨g, there, ?_, ?_, h.succeeds split returned⟩,
    by simp [split]⟩
  · rw [List.eq_nil_iff_forall_not_mem]
    intro f failure
    obtain ⟨a, ending, e, member, error, -⟩ := FatedGroup.mem_failures.1 failure
    obtain ⟨j, member⟩ := List.getElem?_of_mem member
    have short := (List.getElem?_eq_some_iff.1 member).1
    rcases w.returned l reached _ (plays.mem_calls.2 ⟨j, short, rfl⟩) with
      ⟨k, made, ended⟩ | ⟨b', barrier', pending⟩
    · cases plays.endings j a _ k _ member made ended
      cases error
    · rw [barrier] at barrier'
      cases barrier'
      cases never member pending
  · intro succeeds
    obtain ⟨i, pending⟩ := List.exists_mem_of_ne_nil _ nonempty
    obtain ⟨j, short, rfl⟩ := plays.mem_calls.1 (awaited i pending)
    obtain ⟨⟨a, fate⟩, member⟩ : ∃ m, g.members[j]? = some m :=
      ⟨_, List.getElem?_eq_getElem short⟩
    cases (never member pending).symm.trans (succeeds _ (List.mem_of_getElem? member))

theorem Follows.verdict_of_returnsIn (h : c.Follows id request plan history)
    (returned : c.ReturnsIn id request.phase history v) :
    v = .ok ∧ verdict plan = .ok ∧ (c.launches id request.phase history).length = plan.length ∨
      ∃ f i g, v = .failed f ∧ verdict plan = .failed i ∧ plan[i]? = some g ∧ f ∈ g.failures ∧
        (c.launches id request.phase history).length = i + 1 := by
  obtain ⟨before, x, later, rfl, returns⟩ := returned
  rw [returns.launches]
  exact h.before.verdict_of_returns returns

theorem Follows.length_launches (h : c.Follows id request plan history) :
    (c.launches id request.phase history).length ≤ plan.length := by
  rcases h.working with ⟨v, returned⟩ | ⟨p, w, asks, ahead⟩
  · rcases h.verdict_of_returnsIn returned with ⟨-, -, all⟩ | ⟨f, i, g, -, -, there, -, places⟩
    · exact Nat.le_of_eq all
    · rw [places]
      exact (List.getElem?_eq_some_iff.1 there).1
  · have places := congrArg List.length ahead
    simp only [List.length_map, List.length_append] at places
    omega

theorem Follows.reached (h : c.Follows id request plan history) :
    c.reached id request.phase history =
      (plan.take (c.reached id request.phase history).length).map FatedGroup.group := by
  have short := h.length_launches
  rw [← map_launches, List.length_map]
  refine List.ext_getElem? fun i => ?_
  rw [List.getElem?_map, List.getElem?_map, List.getElem?_take]
  cases there : (c.launches id request.phase history)[i]? with
  | none => simp [Nat.not_lt.2 (List.getElem?_eq_none_iff.1 there)]
  | some l =>
    have lt := (List.getElem?_eq_some_iff.1 there).1
    have lt' : i < plan.length := by omega
    have planned : plan[i]? = some plan[i] := List.getElem?_eq_getElem lt'
    simp [lt, planned, (h.plays i l _ there planned).group]

theorem length_reached (c : Controller) (id : Nat) (phase : Phase) (history : List Action) :
    (c.reached id phase history).length = (c.launches id phase history).length := by
  rw [← map_launches, List.length_map]

/-- When nothing more happens, the phase has come to what its plan says. -/
theorem Follows.verdict_of_complete (h : c.Follows id request plan history)
    (complete : c.Complete id request plan history) :
    verdict plan = .ok ∧ c.ReturnsIn id request.phase history .ok ∨
      (∃ i, verdict plan = .failed i ∧ c.FailsAt id request.phase history i) ∨
      ∃ i, verdict plan = .hangs i ∧ (∀ v, ¬ c.ReturnsIn id request.phase history v) ∧
        (c.reached id request.phase history).length = i + 1 := by
  rw [length_reached]
  by_cases returned : ∃ v, c.ReturnsIn id request.phase history v
  · obtain ⟨v, returned⟩ := returned
    rcases h.verdict_of_returnsIn returned with ⟨rfl, ok, -⟩ | ⟨f, i, g, rfl, failed, -, -, place⟩
    · exact .inl ⟨ok, returned⟩
    · exact .inr (.inl ⟨i, failed, ⟨f, returned⟩, (length_reached c id _ history).trans place⟩)
  · have silent := not_exists.1 returned
    obtain ⟨i, hangs, place⟩ := h.verdict_of_stuck complete silent
    exact .inr (.inr ⟨i, hangs, silent, place⟩)

theorem Follows.returnsIn_ok (h : c.Follows id request plan history)
    (returned : c.ReturnsIn id request.phase history .ok) : verdict plan = .ok := by
  rcases h.verdict_of_returnsIn returned with ⟨-, ok, -⟩ | ⟨f, i, g, other, -⟩
  · exact ok
  · cases other

theorem Follows.failsAt (h : c.Follows id request plan history)
    (fails : c.FailsAt id request.phase history i) : verdict plan = .failed i := by
  obtain ⟨⟨f, returned⟩, place⟩ := fails
  rw [length_reached] at place
  rcases h.verdict_of_returnsIn returned with ⟨other, -⟩ | ⟨f', i', g, -, failed, -, -, place'⟩
  · cases other
  · rw [place, Nat.add_right_cancel_iff] at place'
    rw [failed, place']

theorem Follows.returnsIn_ok_iff (h : c.Follows id request plan history)
    (complete : c.Complete id request plan history) :
    c.ReturnsIn id request.phase history .ok ↔ verdict plan = .ok := by
  refine ⟨h.returnsIn_ok, fun ok => ?_⟩
  rcases h.verdict_of_complete complete with ⟨-, returned⟩ | ⟨i, other, -⟩ | ⟨i, other, -⟩
  · exact returned
  · rw [ok] at other
    cases other
  · rw [ok] at other
    cases other

theorem Follows.failsAt_iff (h : c.Follows id request plan history)
    (complete : c.Complete id request plan history) :
    c.FailsAt id request.phase history i ↔ verdict plan = .failed i := by
  refine ⟨h.failsAt, fun failed => ?_⟩
  rcases h.verdict_of_complete complete with ⟨other, -⟩ | ⟨i', same, fails⟩ | ⟨i', other, -⟩
  · rw [failed] at other
    cases other
  · rw [failed] at same
    cases same
    exact fails
  · rw [failed] at other
    cases other

/-! ## The law -/

/-- **Timing does not matter to what a phase comes to.** Let the phase that a run begins go by a
plan, uncancelled, with calls that end in any order. The calls made in the course of it are one to
each member of the groups reached, which are the first ones of the plan. If it returns, then with
what the plan says: with success after all groups, and the run goes on from there, or with a failure
of a member of the last group reached, and the run is resolved with that. When nothing more happens,
it has returned with success if and only if everyone succeeds, and with a failure in a group if and
only if a member fails there and everyone succeeds in the groups before; otherwise it hangs in the
first group that does not succeed. So it comes to the same in any two executions of one plan. -/
theorem phase_verdict (c : Controller) (id : Nat) (request : Request) (plan : List FatedGroup)
    (history : List Action) (follows : c.Follows id request plan history) :
    let phase := request.phase
    let n := (c.reached id phase history).length
    c.reached id phase history = (plan.take n).map FatedGroup.group ∧
    (c.after history).targets id phase = c.targets id phase ++
      (plan.take n).flatMap (fun g => g.members.map fun m => (g.priority, m.1)) ∧
    (c.ReturnsIn id phase history .ok → verdict plan = .ok ∧ n = plan.length) ∧
    (∀ f, c.ReturnsIn id phase history (.failed f) → ∃ i g, verdict plan = .failed i ∧
      plan[i]? = some g ∧ f ∈ g.failures ∧ n = i + 1 ∧
      (c.after history).outcome? (.run id) = some (.error (.ofPhase phase f.error))) ∧
    ¬ c.ReturnsIn id phase history .canceled ∧
    (∀ before x later v, history = before ++ x :: later →
      (c.after before).Returns id phase x v →
      ∃ r p, (c.after before).runs[id]? = some r ∧ r.stage = .active p ∧ p.request.phase = phase ∧
        (v = .ok ∧ (c.after before).step x = (c.after before).completePhase id r p.request ∨
          ∃ f b, v = .failed f ∧ p.barrier? = some b ∧
            (c.after before).step x = (c.after before).fail id phase b.token f)) ∧
    (c.Complete id request plan history →
      (c.ReturnsIn id phase history .ok ↔ ∀ g ∈ plan, g.Succeeds) ∧
      (∀ i, c.FailsAt id phase history i ↔
        ∃ g, plan[i]? = some g ∧ g.failures ≠ [] ∧ ∀ g' ∈ plan.take i, g'.Succeeds) ∧
      (∀ i, verdict plan = .hangs i → (∀ v, ¬ c.ReturnsIn id phase history v) ∧ n = i + 1) ∧
      ∀ (c' : Controller) (id' : Nat) (request' : Request) (history' : List Action),
        c'.Follows id' request' plan history' → c'.Complete id' request' plan history' →
        (c.ReturnsIn id phase history .ok ↔ c'.ReturnsIn id' request'.phase history' .ok) ∧
        ∀ i, c.FailsAt id phase history i ↔ c'.FailsAt id' request'.phase history' i) := by
  intro phase n
  have reached := follows.reached
  have uncanceled : ¬ c.ReturnsIn id phase history .canceled := by
    intro returned
    rcases follows.verdict_of_returnsIn returned with ⟨other, -⟩ | ⟨f, i, g, other, -⟩ <;>
      cases other
  refine ⟨reached, ?_, ?_, ?_, uncanceled, ?_, ?_⟩
  · rw [targets_after, reached, List.flatMap_map]
    simp [Group.targets, FatedGroup.group, n, phase, Function.comp_def]
  · intro returned
    refine ⟨follows.returnsIn_ok returned, ?_⟩
    rcases follows.verdict_of_returnsIn returned with ⟨-, -, all⟩ | ⟨f, i, g, other, -⟩
    · exact (length_reached c id phase history).trans all
    · cases other
  · intro f returned
    rcases follows.verdict_of_returnsIn returned with
      ⟨other, -⟩ | ⟨f', i, g, same, failed, there, failure, place⟩
    · cases other
    · cases same
      exact ⟨i, g, failed, there, failure, (length_reached c id phase history).trans place,
        returned.outcome⟩
  · intro before x later v split returns
    obtain ⟨r, p, run, active, asks, ⟨ok, -, -, goesOn⟩ | ⟨rfl, -⟩ | fails⟩ := returns.step_eq
    · exact ⟨r, p, run, active, asks, .inl ⟨ok, goesOn⟩⟩
    · exact absurd ⟨before, x, later, split, returns⟩ uncanceled
    · exact ⟨r, p, run, active, asks, .inr fails⟩
  · intro complete
    refine ⟨?_, fun i => ?_, fun i hangs => ?_, ?_⟩
    · rw [follows.returnsIn_ok_iff complete, verdict_eq_ok]
    · rw [follows.failsAt_iff complete, verdict_eq_failed]
    · rcases follows.verdict_of_complete complete with
        ⟨other, -⟩ | ⟨i', other, -⟩ | ⟨i', same, silent, place⟩
      · rw [hangs] at other
        cases other
      · rw [hangs] at other
        cases other
      · rw [hangs] at same
        cases same
        exact ⟨silent, place⟩
    · intro c' id' request' history' follows' complete'
      rw [follows.returnsIn_ok_iff complete, follows'.returnsIn_ok_iff complete']
      refine ⟨Iff.rfl, fun i => ?_⟩
      rw [follows.failsAt_iff complete, follows'.failsAt_iff complete']

/-- A phase fails in its last group, where one call panics and another one never returns. -/
theorem phase_verdict_failed :
    let a : Activity := ⟨"a", "a"⟩
    let b : Activity := ⟨"b", "b"⟩
    let e : Activity := ⟨"e", "e"⟩
    let boom : Ending := .panicked (.text "boom")
    let c := (create { requestedState := .running } []).after <|
      [.register a 8, .register b 9, .register e 9, .suspend {}] ++ List.replicate 8 (.turn 0)
    let plan : List FatedGroup := [⟨⟨8, by decide⟩, [(a, some .returned)]⟩,
      ⟨⟨9, by decide⟩, [(b, some boom), (e, none)]⟩]
    let history : List Action := [.turn 0, .finish 0 .returned, .collect 0 0, .turn 0, .turn 0,
      .finish 1 boom, .collect 0 1]
    c.Follows 0 (.prepare {}) plan history ∧ c.Complete 0 (.prepare {}) plan history ∧
      c.ReturnsIn 0 .prepare history (.failed ⟨"b", ⟨9, by decide⟩, .panicked "boom"⟩) ∧
      verdict plan = .failed 1 ∧ c.FailsAt 0 .prepare history 1 ∧
      (c.after history).outcome? (.run 0) = some (.error (.aborted (.panicked "boom"))) := by
  intro a b e boom c plan history
  have launches : c.launches 0 .prepare history =
      [⟨0, ⟨⟨8, by decide⟩, [a]⟩⟩, ⟨1, ⟨⟨9, by decide⟩, [b, e]⟩⟩] := by decide
  have ends : (c.after history).calls.map (·.ending?) = [some .returned, some boom, none] := by
    decide
  have ended : ∀ {i : Nat} {k : Call}, (c.after history).calls[i]? = some k →
      [some .returned, some boom, none][i]? = some k.ending? := by
    intro i k made
    rw [← ends, List.getElem?_map, made]
    rfl
  have begun : c.runs[0]? = some ⟨.suspend {}, 1, .active ⟨.prepare {}, [⟨8, by decide⟩,
    ⟨9, by decide⟩], none⟩⟩ := by decide
  have waits : (c.after history.dropLast).runs[0]? = some ⟨.suspend {}, 1, .active ⟨.prepare {}, [],
    some ⟨⟨9, by decide⟩, .child (.attempt 1) 1, [1, 2]⟩⟩⟩ := by decide
  have call : (c.after history.dropLast).calls[1]? =
    some ⟨b, .prepare {}, .child (.child (.attempt 1) 1) 1, .run 0 ⟨9, by decide⟩, some boom⟩ := by
      decide
  have live : (c.after history).isCancelled (.attempt 1) = false := by decide
  have resolved : (c.after history).runs[0]? =
    some ⟨.suspend {}, 1, .resolved (.error (.aborted (.panicked "boom")))⟩ := by decide
  have follows : c.Follows 0 (.prepare {}) plan history := by
    refine ⟨⟨_, begun, rfl⟩, fun i l g there planned => ?_, fun r run => ?_⟩
    · rw [show Request.phase (.prepare {}) = .prepare from rfl, launches] at there
      rcases i with _ | _ | i
      · cases there
        cases planned
        refine ⟨rfl, fun j a' fate k e' member made hk => ?_⟩
        have := ended made
        rcases j with _ | j <;> simp_all
      · cases there
        cases planned
        refine ⟨rfl, fun j a' fate k e' member made hk => ?_⟩
        have := ended made
        rcases j with _ | _ | j <;> simp_all
      · cases there
    · rw [resolved] at run
      cases run
      exact live
  have returned : c.ReturnsIn 0 .prepare history
      (.failed ⟨"b", ⟨9, by decide⟩, .panicked "boom"⟩) :=
    ⟨history.dropLast, .collect 0 1, [], rfl, .failed _ _ _ 1 _ _ _ waits rfl rfl
      (by decide) rfl (by decide) call rfl rfl⟩
  have complete : c.Complete 0 (.prepare {}) plan history := .inl ⟨_, returned⟩
  obtain ⟨-, -, -, failed, -, -, result⟩ := phase_verdict c 0 (.prepare {}) plan history follows
  obtain ⟨-, -, -, -, -, -, outcome⟩ := failed _ returned
  refine ⟨follows, complete, returned, rfl, ((result complete).2.1 1).2 ⟨_, rfl, by decide, ?_⟩,
    outcome⟩
  decide

end Controller

end Quiesce
