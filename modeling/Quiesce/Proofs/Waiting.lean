import Mathlib.Logic.Function.Basic
import Quiesce.Proofs.Coalescing
import Quiesce.Waiter
/-!
# Waiting for an outcome

A *scene* is a controller with a clock and with waiters for outcomes, some of them with a limit. A
poll of a waiter (`Happening.poll`) moves the run on as the run's own task does; this is all that
waiting does to the controller (`actions_of_key?`). So waiters can be erased from a history if these
steps are left to the run, and the rest of it is the same (`erase_after`); a handle that is never
polled is no part of a scene. A waiter receives the first answer that one of its polls gives
(`waiting_after`), which is the outcome if that was there in time (`in_time`).
-/

namespace Quiesce

/-- The run whose outcome a handle gives. -/
def Completion.run? : Completion → Option Nat
  | ready => none
  | run id => some id

/-- The steps that a run makes during a poll for its outcome: its own only. -/
def Completion.own (q : Completion) (steps : List Action) : List Action :=
  steps.filter fun x => x.run? ≠ none ∧ x.run? = q.run?

/-- A waiter for an outcome, with what it has received. -/
structure Waiting where
  completion : Completion
  waiter : Waiter
  received? : Option Outcome := none
deriving DecidableEq, Repr

/-- A poll at an instant. What was received before stays. -/
def Waiting.poll (w : Waiting) (now : Nat) (c : Controller) : Waiting :=
  { w with received? := w.received?.or (w.waiter.poll now (c.outcome? w.completion)) }

/-- What can happen while there are waiters. A waiter is known by its number. -/
inductive Happening
  | act (x : Action)
  /-- Time passes, counted in nanoseconds. -/
  | pass (span : Nat)
  /-- A new waiter, polled at once. The run makes steps in the course of the poll. -/
  | wait (key : Nat) (q : Completion) (limit? : Option Duration) (steps : List Action)
  /-- A further poll. The run makes steps in its course if nothing was received before. -/
  | poll (key : Nat) (steps : List Action)
  /-- A waiter is dropped. -/
  | leave (key : Nat)
deriving DecidableEq, Repr

namespace Happening

/-- The waiter that is concerned. -/
def key? : Happening → Option Nat
  | wait key .. | poll key _ | leave key => some key
  | act _ | pass _ => none

def span : Happening → Nat
  | pass span => span
  | _ => 0

/-- The steps that a poll may bring about. -/
def steps : Happening → List Action
  | wait _ _ _ steps | poll _ steps => steps
  | act _ | pass _ | leave _ => []

def polls (key : Nat) : Happening → Bool
  | wait k .. | poll k _ => k = key
  | act _ | pass _ | leave _ => false

/-- The waiter is dropped, or another one takes its number. -/
def frees (key : Nat) : Happening → Bool
  | wait k .. | leave k => k = key
  | act _ | pass _ | poll .. => false

end Happening

/-- A controller, the time, and the waiters. -/
structure Scene where
  controller : Controller
  now : Nat := 0
  waiting : Nat → Option Waiting := fun _ => none

namespace Scene

/-- The actions of the controller that a happening consists in. -/
def actions (s : Scene) : Happening → List Action
  | .act x => [x]
  | .wait _ q _ steps => q.own steps
  | .poll key steps =>
    match s.waiting key with
    | some { completion, received? := none, .. } => completion.own steps
    | _ => []
  | .pass _ | .leave _ => []

/-- What becomes of the waiter that is concerned. -/
def becomes (s : Scene) (x : Happening) : Option Waiting :=
  let c := s.controller.after (s.actions x)
  match x with
  | .wait _ q limit? _ => some (Waiting.poll ⟨q, ⟨s.now, limit?⟩, none⟩ s.now c)
  | .poll key _ => (s.waiting key).map fun w => w.poll s.now c
  | .leave _ | .act _ | .pass _ => none

def step (s : Scene) (x : Happening) : Scene where
  controller := s.controller.after (s.actions x)
  now := s.now + x.span
  waiting := x.key?.elim s.waiting fun key => Function.update s.waiting key (s.becomes x)

def after (s : Scene) (history : List Happening) : Scene := history.foldl step s

def outcome? (s : Scene) (q : Completion) : Option Outcome := s.controller.outcome? q

/-- The scenes at which a waiter asks in the course of a history. -/
def polled (s : Scene) (key : Nat) : List Happening → List Scene
  | [] => []
  | x :: later => (if x.polls key then [s.step x] else []) ++ (s.step x).polled key later

def answer (w : Waiter) (q : Completion) (s : Scene) : Option Outcome := w.poll s.now (s.outcome? q)

/-- The scene without some of the waiters. -/
def erase (s : Scene) (gone : Nat → Bool) : Scene :=
  { s with waiting := fun key => if gone key then none else s.waiting key }

/-- What is left of a happening without some of the waiters: the steps that the run made. -/
def remains (s : Scene) (gone : Nat → Bool) (x : Happening) : List Happening :=
  if x.key?.any gone then (s.actions x).map .act else [x]

/-- What is left of a history without some of the waiters. -/
def remaining (s : Scene) (gone : Nat → Bool) : List Happening → List Happening
  | [] => []
  | x :: later => s.remains gone x ++ (s.step x).remaining gone later

variable {s u : Scene} {x : Happening} {later history : List Happening} {key : Nat}
  {q : Completion} {w : Waiter} {o : Outcome} {r? : Option Outcome} {gone : Nat → Bool}

theorem after_append (s : Scene) (earlier later : List Happening) :
    s.after (earlier ++ later) = (s.after earlier).after later :=
  List.foldl_append

/-! ## Without some of the waiters -/

/-- All that waiting does to the controller is to move runs on. -/
theorem actions_of_key? (waiter : x.key? = some key) : ∀ y ∈ s.actions x, y.run?.isSome := by
  have own : ∀ (q : Completion) (steps : List Action), ∀ y ∈ q.own steps, y.run?.isSome := by
    intro q steps y member
    have moves := (of_decide_eq_true (List.mem_filter.1 member).2).1
    exact Option.isSome_iff_ne_none.2 moves
  cases x with
  | act | pass => cases waiter
  | wait k q limit? steps => exact own q steps
  | poll k steps =>
    simp only [actions]
    split
    · exact own _ steps
    · simp
  | leave k => simp [actions]

theorem after_map_act (s : Scene) (xs : List Action) :
    s.after (xs.map .act) = { s with controller := s.controller.after xs } := by
  induction xs generalizing s with
  | nil => rfl
  | cons x xs ih => exact ih (s.step (.act x))

theorem span_of_key? (known : x.key? = some key) : x.span = 0 := by
  cases x <;> first | rfl | cases known

/-- What a poll of an erased waiter does to a run, the run does by itself. -/
theorem erase_step_of_gone (known : x.key? = some key) (isGone : gone key = true) :
    (s.erase gone).after ((s.actions x).map .act) = (s.step x).erase gone := by
  rw [after_map_act]
  simp only [erase, step, known, span_of_key? known, Nat.add_zero, Option.elim_some, mk.injEq,
    true_and]
  funext k
  by_cases same : k = key
  · simp [same, isGone]
  · simp [Function.update_of_ne same]

theorem erase_looks (stays : x.key?.any gone = false) :
    (s.erase gone).actions x = s.actions x ∧ (s.erase gone).becomes x = s.becomes x := by
  cases x with
  | poll key steps =>
    have stays : gone key = false := stays
    simp [actions, becomes, erase, stays]
  | _ => exact ⟨rfl, rfl⟩

theorem waiting_erase (stays : gone key = false) : (s.erase gone).waiting key = s.waiting key := by
  simp [erase, stays]

theorem erase_step_of_stays (stays : x.key?.any gone = false) :
    (s.erase gone).step x = (s.step x).erase gone := by
  obtain ⟨actions, becomes⟩ := erase_looks (s := s) stays
  simp only [step, actions, becomes]
  simp only [erase, mk.injEq, true_and]
  funext k
  cases known : x.key? with
  | none => rfl
  | some key =>
    rw [known, Option.any_some] at stays
    by_cases same : k = key
    · simp [same, stays]
    · simp [Function.update_of_ne same]

theorem erase_step (s : Scene) (gone : Nat → Bool) (x : Happening) :
    (s.erase gone).after (s.remains gone x) = (s.step x).erase gone := by
  unfold remains
  split
  · next isGone =>
    obtain ⟨key, known, isGone⟩ := (Option.any_eq_true _ _).1 isGone
    exact erase_step_of_gone known isGone
  · next stays => exact erase_step_of_stays (by simpa using stays)

/-- **What happens in a history happens without some of the waiters as well.** -/
theorem erase_after (s : Scene) (gone : Nat → Bool) (history : List Happening) :
    (s.erase gone).after (s.remaining gone history) = (s.after history).erase gone := by
  induction history generalizing s with
  | nil => rfl
  | cons x later ih =>
    rw [remaining, after_append, erase_step]
    exact ih (s.step x)

/-- What is left of a history is no happening of an erased waiter: it is one of the history, or a
step of a run. -/
theorem mem_remaining (left : x ∈ s.remaining gone history) : x.key?.any gone = false ∧
    (x ∈ history ∨ ∃ y, x = .act y ∧ y.run?.isSome) := by
  induction history generalizing s with
  | nil => cases left
  | cons z later ih =>
    rcases List.mem_append.1 left with now | after
    · unfold remains at now
      split at now
      · next isGone =>
        obtain ⟨key, known, -⟩ := (Option.any_eq_true _ _).1 isGone
        obtain ⟨y, step, rfl⟩ := List.mem_map.1 now
        exact ⟨rfl, .inr ⟨y, rfl, actions_of_key? known y step⟩⟩
      · next stays =>
        obtain rfl := List.mem_singleton.1 now
        exact ⟨by simpa using stays, .inl List.mem_cons_self⟩
    · exact (ih after).imp_right fun known => known.imp_left (List.mem_cons_of_mem _)

/-- Erased waiters whose polls moved no run leave nothing behind. -/
theorem remaining_eq_filter (idle : ∀ x ∈ history, x.key?.any gone = true → x.steps = []) :
    s.remaining gone history = history.filter fun x => !x.key?.any gone := by
  induction history generalizing s with
  | nil => rfl
  | cons x later ih =>
    have rest := ih (s := s.step x) fun y member => idle y (List.mem_cons_of_mem _ member)
    cases isGone : x.key?.any gone with
    | false => simp [remaining, remains, isGone, rest]
    | true =>
      have nothing : s.actions x = [] := by
        have steps := idle x List.mem_cons_self isGone
        cases x with
        | act | pass => cases isGone
        | wait k q limit? steps' =>
          cases steps
          rfl
        | poll k steps' =>
          cases steps
          simp only [actions]
          split <;> rfl
        | leave => rfl
      simp [remaining, remains, isGone, nothing, rest]

/-! ## What a waiter receives -/

/-- A waiter keeps what it has received, and otherwise receives the answer of a poll. -/
theorem waiting_step (here : s.waiting key = some ⟨q, w, r?⟩) (stays : x.frees key = false) :
    (s.step x).waiting key =
      some ⟨q, w, r?.or (if x.polls key then answer w q (s.step x) else none)⟩ := by
  cases x with
  | act | pass => simpa [step, Happening.key?, Happening.polls] using here
  | wait k q' limit? steps =>
    have other : key ≠ k := fun same => by simp [Happening.frees, same] at stays
    simp [step, Happening.key?, Function.update_of_ne other, here, Happening.polls, other.symm]
  | leave k =>
    have other : key ≠ k := fun same => by simp [Happening.frees, same] at stays
    simp [step, Happening.key?, Function.update_of_ne other, here, Happening.polls]
  | poll k steps =>
    by_cases same : key = k
    · subst same
      simp [step, Happening.key?, becomes, here, Waiting.poll, Happening.polls, answer, outcome?,
        Happening.span]
    · simp [step, Happening.key?, Function.update_of_ne same, here, Happening.polls, Ne.symm same]

/-- A waiter receives the first answer that a poll gives. -/
theorem waiting_after (here : s.waiting key = some ⟨q, w, r?⟩)
    (stays : ∀ x ∈ later, x.frees key = false) :
    (s.after later).waiting key =
      some ⟨q, w, r?.or ((s.polled key later).findSome? (answer w q))⟩ := by
  induction later generalizing s r? with
  | nil => simpa [after, polled] using here
  | cons x later ih =>
    have next := waiting_step here (stays x List.mem_cons_self)
    refine (ih next fun y member => stays y (List.mem_cons_of_mem _ member)).trans ?_
    by_cases asks : x.polls key = true
    · simp only [asks, if_true, polled, List.findSome?_append, List.findSome?_singleton,
        Option.or_assoc]
    · simp [asks, polled]

theorem waiting_of_wait (limit? : Option Duration) (steps : List Action)
    (stays : ∀ x ∈ later, x.frees key = false) :
    let asking := .wait key q limit? steps :: later
    (s.after asking).waiting key =
      some ⟨q, ⟨s.now, limit?⟩, (s.polled key asking).findSome? (answer ⟨s.now, limit?⟩ q)⟩ := by
  have begins : (s.step (.wait key q limit? steps)).waiting key =
      some ⟨q, ⟨s.now, limit?⟩, answer ⟨s.now, limit?⟩ q (s.step (.wait key q limit? steps))⟩ := by
    simp [step, Happening.key?, becomes, Waiting.poll, answer, outcome?, Happening.span]
  refine (waiting_after begins stays).trans ?_
  have asks : (Happening.wait key q limit? steps).polls key = true := by simp [Happening.polls]
  rw [polled, if_pos asks, List.findSome?_append, List.findSome?_singleton]

/-! ## In time, and too late -/

/-- The one scene is not later than the other: the clock does not go back, and outcomes stay. -/
structure Precedes (s u : Scene) : Prop where
  now : s.now ≤ u.now
  outcome : ∀ q o, s.outcome? q = some o → u.outcome? q = some o

theorem precedes_after (s : Scene) (history : List Happening) : s.Precedes (s.after history) := by
  induction history generalizing s with
  | nil => exact ⟨Nat.le_refl _, fun _ _ available => available⟩
  | cons x later ih =>
    obtain ⟨now, outcome⟩ := ih (s.step x)
    refine ⟨Nat.le_trans (Nat.le_add_right _ _) now, fun q o available => outcome q o ?_⟩
    exact Controller.outcome?_after available _

theorem polled_append (s : Scene) (key : Nat) (earlier later : List Happening) :
    s.polled key (earlier ++ later) =
      s.polled key earlier ++ (s.after earlier).polled key later := by
  induction earlier generalizing s with
  | nil => rfl
  | cons x earlier ih => simp [polled, ih, after]

theorem mem_polled : u ∈ s.polled key history ↔ ∃ before x rest, history = before ++ x :: rest ∧
    x.polls key = true ∧ u = s.after (before ++ [x]) := by
  constructor
  · intro member
    induction history generalizing s with
    | nil => cases member
    | cons x later ih =>
      rcases List.mem_append.1 member with now | after
      · split at now
        · next asks => exact ⟨[], x, later, rfl, asks, List.mem_singleton.1 now⟩
        · cases now
      · obtain ⟨before, y, rest, rfl, asks, rfl⟩ := ih after
        exact ⟨x :: before, y, rest, rfl, asks, rfl⟩
  · rintro ⟨before, x, rest, rfl, asks, rfl⟩
    rw [polled_append, polled, if_pos asks, after_append]
    simp [after]

/-- The scenes of the polls lie between the first and the last scene. -/
theorem precedes_of_mem_polled (member : u ∈ s.polled key history) :
    s.Precedes u ∧ u.Precedes (s.after history) := by
  obtain ⟨before, x, rest, rfl, -, rfl⟩ := mem_polled.1 member
  refine ⟨precedes_after s _, ?_⟩
  have split : s.after (before ++ x :: rest) = (s.after (before ++ [x])).after rest := by
    rw [← after_append]
    simp
  rw [split]
  exact precedes_after _ rest

section
variable {t : Nat} {d : Duration}

/-- The answers to a waiter with a limit: the outcome, or from the deadline on a timeout. -/
theorem answer_eq_some : answer ⟨t, some d⟩ q u = some o ↔
    u.outcome? q = some o ∨
      u.outcome? q = none ∧ t + d.nanoseconds ≤ u.now ∧ o = .error (.timeout d) := by
  cases outcome : u.outcome? q with
  | some o' => simp [answer, Waiter.poll, outcome]
  | none =>
    simp only [answer, Waiter.poll, outcome]
    split
    · next late => simpa [late] using eq_comm
    · next early => simp [early]

/-- If the outcome is there at the beginning, or at some instant before the deadline, a waiter
receives nothing else, and has received it after its next poll. -/
theorem in_time {before rest : List Happening} (resolved : (s.after before).outcome? q = some o)
    (early : before = [] ∨ (s.after before).now < t + d.nanoseconds) :
    let received? := (s.polled key (before ++ rest)).findSome? (answer ⟨t, some d⟩ q)
    (received? = none ∨ received? = some o) ∧
      ((∃ x ∈ rest, x.polls key = true) → received? = some o) := by
  intro received?
  have whole : received? = ((s.polled key before).findSome? (answer ⟨t, some d⟩ q)).or
      (((s.after before).polled key rest).findSome? (answer ⟨t, some d⟩ q)) := by
    simp only [received?, polled_append, List.findSome?_append]
  -- Before the outcome was there, it was too early for a timeout.
  have outcome : ∀ v ∈ s.polled key before, ∀ o', answer ⟨t, some d⟩ q v = some o' → o' = o := by
    intro v member o' told
    obtain ⟨-, precedes⟩ := precedes_of_mem_polled member
    rcases answer_eq_some.1 told with available | ⟨-, late, -⟩
    · rw [precedes.outcome q o' available] at resolved
      exact Option.some.inj resolved
    · rcases early with rfl | early
      · cases member
      · exact absurd (Nat.le_trans late precedes.now) (Nat.not_le.2 early)
  have since : ∀ v ∈ (s.after before).polled key rest, answer ⟨t, some d⟩ q v = some o :=
    fun v member => answer_eq_some.2 (.inl ((precedes_of_mem_polled member).1.outcome q o resolved))
  rw [whole]
  cases first : (s.polled key before).findSome? (answer ⟨t, some d⟩ q) with
  | some o' =>
    obtain ⟨v, member, told⟩ := List.exists_of_findSome?_eq_some first
    simp [outcome v member o' told]
  | none =>
    cases asked : (s.after before).polled key rest with
    | nil =>
      refine ⟨.inl rfl, ?_⟩
      rintro ⟨x, member, asks⟩
      obtain ⟨b, r, rfl⟩ := List.append_of_mem member
      have known := (mem_polled (s := s.after before)).2 ⟨b, x, r, rfl, asks, rfl⟩
      rw [asked] at known
      cases known
    | cons v vs =>
      rw [asked] at since
      simp [since v List.mem_cons_self]

/-- A waiter that is polled from its deadline on without an outcome receives a timeout. -/
theorem too_late {before rest : List Happening} (asks : x.polls key = true)
    (unresolved : (s.after (before ++ [x])).outcome? q = none)
    (late : t + d.nanoseconds ≤ (s.after (before ++ [x])).now) :
    (s.polled key (before ++ x :: rest)).findSome? (answer ⟨t, some d⟩ q) =
      some (.error (.timeout d)) := by
  -- There was no outcome any earlier, so nothing else can have been told.
  have told : ∀ v ∈ s.polled key (before ++ [x]), ∀ o, answer ⟨t, some d⟩ q v = some o →
      o = .error (.timeout d) := by
    intro v member o told
    rcases answer_eq_some.1 told with available | ⟨-, -, timeout⟩
    · rw [(precedes_of_mem_polled member).2.outcome q o available] at unresolved
      cases unresolved
    · exact timeout
  have asked := (mem_polled (s := s)).2 ⟨before, x, [], rfl, asks, rfl⟩
  have answered := answer_eq_some.2 (.inr ⟨unresolved, late, rfl⟩)
  rw [show before ++ x :: rest = before ++ [x] ++ rest by simp, polled_append,
    List.findSome?_append]
  cases first : (s.polled key (before ++ [x])).findSome? (answer ⟨t, some d⟩ q) with
  | none =>
    rw [List.findSome?_eq_none_iff.1 first _ asked] at answered
    cases answered
  | some o =>
    obtain ⟨v, member, given⟩ := List.exists_of_findSome?_eq_some first
    rw [told v member o given, Option.some_or]

end

end Scene

/-! ## The law -/

/-- **Waiting changes nothing for anyone else.** In any history let a waiter begin at the instant
`t` to wait for an outcome, for the span `d` at most, and not be dropped. If the outcome is there at
the beginning, or at some instant before `t + d`, the waiter can receive nothing else, and receives
it at its next poll; if it is not there at a poll at `t + d` or later, the waiter receives a timeout
with `d`; and it receives nothing but one of these (1). Erase some waiters from a history, so that
of their polls only the steps are left that runs made in their course: all else is the same (2). So
two histories of which the same is left lead to the same controller, with its state, calls, tokens,
events and outcomes, at the same time, and all other waiters receive the same (3). Waiters whose
polls moved no run leave nothing behind (4). -/
theorem waiting_is_own_business (config : Config) (listeners : List Listener)
    (past : List Happening) :
    let s := Scene.after { controller := .create config listeners } past
    (∀ key q d steps later, (∀ x ∈ later, x.frees key = false) →
      let asking := .wait key q (some d) steps :: later
      ∃ w, (s.after asking).waiting key = some w ∧ w.completion = q ∧
        (∀ before rest o, asking = before ++ rest →
          (s.after before).outcome? q = some o →
          before = [] ∨ (s.after before).now < s.now + d.nanoseconds →
          (w.received? = none ∨ w.received? = some o) ∧
            ((∃ x ∈ rest, x.polls key = true) → w.received? = some o)) ∧
        (∀ u ∈ s.polled key asking, u.outcome? q = none → s.now + d.nanoseconds ≤ u.now →
          w.received? = some (.error (.timeout d))) ∧
        ∀ o, w.received? = some o → ∃ u ∈ s.polled key asking, u.outcome? q = some o ∨
          u.outcome? q = none ∧ s.now + d.nanoseconds ≤ u.now ∧ o = .error (.timeout d)) ∧
    (∀ gone history,
      (s.erase gone).after (s.remaining gone history) = (s.after history).erase gone ∧
      ∀ x ∈ s.remaining gone history, x.key?.any gone = false ∧
        (x ∈ history ∨ ∃ y, x = .act y ∧ y.run?.isSome)) ∧
    (∀ gone history history', s.remaining gone history = s.remaining gone history' →
      (s.after history).controller = (s.after history').controller ∧
      (s.after history).now = (s.after history').now ∧
      ∀ key, gone key = false → (s.after history).waiting key = (s.after history').waiting key) ∧
    ∀ gone history, (∀ x ∈ history, x.key?.any gone = true → x.steps = []) →
      s.remaining gone history = history.filter fun x => !x.key?.any gone := by
  intro s
  refine ⟨?_, fun gone history => ⟨Scene.erase_after s gone history, fun x => Scene.mem_remaining⟩,
    fun gone history history' same => ?_, fun gone history => Scene.remaining_eq_filter⟩
  · intro key q d steps later stays asking
    refine ⟨_, Scene.waiting_of_wait (some d) steps stays, rfl, ?_, ?_, ?_⟩
    · intro before rest o split resolved early
      rw [show (_ :: later : List Happening) = before ++ rest from split]
      exact Scene.in_time resolved early
    · intro u asked unresolved late
      obtain ⟨before, x, rest, split, asks, rfl⟩ := Scene.mem_polled.1 asked
      rw [show (_ :: later : List Happening) = before ++ x :: rest from split]
      exact Scene.too_late asks unresolved late
    · intro o received
      obtain ⟨u, asked, told⟩ := List.exists_of_findSome?_eq_some received
      exact ⟨u, asked, Scene.answer_eq_some.1 told⟩
  · have erased := calc
      (s.after history).erase gone = (s.erase gone).after (s.remaining gone history) :=
        (Scene.erase_after s gone history).symm
      _ = (s.erase gone).after (s.remaining gone history') := by rw [same]
      _ = (s.after history').erase gone := Scene.erase_after s gone history'
    have controller : (s.after history).controller = (s.after history').controller :=
      congrArg (fun u => u.controller) erased
    have now : (s.after history).now = (s.after history').now := congrArg (fun u => u.now) erased
    refine ⟨controller, now, fun key stays => ?_⟩
    rw [← Scene.waiting_erase stays, erased, Scene.waiting_erase stays]

/-- An attempt takes longer than the limit of a waiter. Another waiter begins when it is over, with
a limit of zero. -/
theorem waiting_is_own_business_late :
    let start : Scene := { controller := .create { requestedState := .running } [] }
    let waits : List Happening :=
      [.wait 0 (.run 0) (some ⟨5⟩) [.turn 0], .pass 5, .poll 0 [.turn 0]]
    let turns : List Happening := List.replicate 20 (.act (.turn 0))
    let s := start.after [.act (.suspend {})]
    let finished := start.after ([.act (.suspend {})] ++ (waits ++ turns))
    (∃ w, (s.after (waits ++ turns)).waiting 0 = some w ∧
      w.received? = some (.error (.timeout ⟨5⟩))) ∧
    (∃ w, (finished.after [.wait 1 (.run 0) (some ⟨0⟩) []]).waiting 1 = some w ∧
      w.received? = some .ok) ∧
    (s.after (waits ++ turns)).controller =
      (s.after ([.act (.turn 0), .pass 5, .act (.turn 0)] ++ turns)).controller := by
  intro start waits turns s finished
  obtain ⟨waiter, -, same, -⟩ :=
    waiting_is_own_business { requestedState := .running } [] [.act (.suspend {})]
  obtain ⟨waiter', -, -, -⟩ := waiting_is_own_business { requestedState := .running } []
    ([.act (.suspend {})] ++ (waits ++ turns))
  obtain ⟨w, here, -, -, late, -⟩ := waiter 0 (.run 0) ⟨5⟩ [.turn 0]
    ([.pass 5, .poll 0 [.turn 0]] ++ turns) (by decide)
  obtain ⟨w', here', -, early, -, -⟩ := waiter' 1 (.run 0) ⟨0⟩ [] [] (by simp)
  refine ⟨⟨w, here, ?_⟩, ⟨w', here', ?_⟩, ?_⟩
  · exact late (s.after waits) (Scene.mem_polled.2 ⟨waits.take 2, _, turns, rfl, rfl, rfl⟩)
      (by decide +kernel) (by decide +kernel)
  · exact (early [] _ .ok rfl (by decide +kernel) (.inl rfl)).2 ⟨_, List.mem_cons_self, rfl⟩
  · exact (same (· = 0) _ _ (by decide +kernel)).1

end Quiesce
