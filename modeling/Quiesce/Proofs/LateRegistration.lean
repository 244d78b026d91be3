import Quiesce.Proofs.Membership
import Quiesce.Proofs.Reports
import Quiesce.Proofs.Tokens
/-!
# What a registration comes to

A registration under a level out of range changes nothing, and neither does one of an activity that
is registered already. Any other takes the activity in and lets everyone know (`enroll`). If the
server is not running, it also calls the activity to suspend (`lateCall`) and waits for the call.
This call stands apart from all runs (`LateSuspend`): no run waits for it, nothing cancels it, and
the result of the registration is what the call comes to, whatever happens in the meantime
(`registration_outcome`).
-/

namespace Quiesce

/-! ## What a call comes to for the caller -/

namespace Ending

variable {ending : Ending} {name : String}

theorem registerResult_eq_ok : ending.registerResult name = .ok ↔ ending = .returned := by
  cases ending <;> simp [registerResult]

theorem registerResult_eq_error {e : RegisterError} : ending.registerResult name = .error e ↔
    ∃ source, e = .lateSuspend name source ∧ (ending = .failed source ∨
      ∃ payload, ending = .panicked payload ∧ source = .panicked payload.info) := by
  cases ending <;> simp [registerResult, eq_comm]

theorem registerResult_eq_panicked {payload : PanicPayload} :
    ending.registerResult name = .panicked payload ↔ ending = .panickedEarly payload := by
  cases ending <;> simp [registerResult]

end Ending

namespace Controller

variable {c c₀ : Controller} {history : List Action} {a : Activity} {p q : Priority} {n level : Nat}
  {k : Call}

/-- The activity is taken in, and everyone is told. -/
def enroll (c : Controller) (a : Activity) (p : Priority) : Controller :=
  { c with registry := c.registry.insert a p }.emit (.registered a p)

/-- The call that a late registration makes. -/
def lateCall (c : Controller) (a : Activity) (p : Priority) : Call :=
  ⟨a, .suspend c.attempt.context, .late c.calls.length, .late p, none⟩

/-- How a registration stands that waits for the call `k`, with the number `n`. -/
structure LateSuspend (c : Controller) (n : Nat) (k : Call) : Prop where
  made : c.calls[n]? = some k
  /-- There is no result before the call has ended. -/
  waits : c.registered? (.late n) = none ↔ k.ending? = none
  ok : c.registered? (.late n) = some .ok ↔ k.ending? = some .returned
  /-- A panic at work is an error of the activity. -/
  error : ∀ e, c.registered? (.late n) = some (.error e) ↔
    ∃ source, e = .lateSuspend k.activity.name source ∧ (k.ending? = some (.failed source) ∨
      ∃ payload, k.ending? = some (.panicked payload) ∧ source = .panicked payload.info)
  panicked : ∀ payload, c.registered? (.late n) = some (.panicked payload) ↔
    k.ending? = some (.panickedEarly payload)
  uncancelled : c.isCancelled k.token = false
  /-- No run waits for the call. -/
  apart : ∀ (id : Nat) (r : Run) (phase : PhaseRun) (b : Barrier), c.runs[id]? = some r →
    r.stage = .active phase → phase.barrier? = some b → n ∉ b.pending

/-! ## Registering -/

theorem registerAt_of_lt (invalid : 9 < level) :
    c.registerAt a level = (c, .refused (.invalidPriority level 0 9)) := by
  simp [registerAt, Priority.ofLevel, Priority.ofLevel?_eq_none_iff.2 invalid, Priority.first,
    Priority.last]

theorem registerAt_of_le (valid : level ≤ 9) :
    ∃ p : Priority, p.level = level ∧ c.registerAt a level = c.register a p :=
  ⟨⟨level, valid⟩, rfl, by simp [registerAt, Priority.ofLevel, Priority.ofLevel?, valid]⟩

theorem register_of_tracked (tracked : c.registry.priorityOf? a = some q) :
    c.register a p = (c, .done) := by
  simp [register, tracked]

theorem register_of_untracked (untracked : c.registry.priorityOf? a = none) :
    c.register a p = if c.state = .running then (c.enroll a p, .done)
      else ({ c.enroll a p with calls := c.calls ++ [c.lateCall a p] }, .late c.calls.length) := by
  by_cases running : c.state = .running <;> simp [register, untracked, running, enroll, lateCall]

/-- One event tells of a new activity; whatever is created with it tells of its drops. -/
theorem created_enroll (c : Controller) (a : Activity) (p : Priority) :
    ∃ drops, c.created (c.enroll a p) = c.hub.next (.registered a p) :: drops ∧
      ∀ other ∈ drops, other.kind = .subscriberOverflow :=
  created_emit rfl _

theorem priorityOf?_enroll (untracked : c.registry.priorityOf? a = none) :
    (c.enroll a p).registry.priorityOf? a = some p := by
  simp [enroll, Registry.priorityOf?_insert untracked]

/-! ## Waiting for the call -/

/-- A late registration has the result that its call has come to, and the call is apart from all
runs. -/
theorem lateSuspend_of_call (new : c₀.New) (made : (c₀.after history).calls[n]? = some k)
    (origin : k.origin = .late p) : (c₀.after history).LateSuspend n k := by
  have result := registered?_late made
  have token : k.token = .late n := (issued_after new history).late made origin
  have apart : ∀ (id : Nat) (r : Run) (phase : PhaseRun) (b : Barrier),
      (c₀.after history).runs[id]? = some r → r.stage = .active phase → phase.barrier? = some b →
      n ∉ b.pending := by
    intro id r phase b run active barrier pending
    -- A run waits only for calls of its own.
    obtain ⟨l, made', ofRun, -⟩ := awaited new run active barrier pending
    cases made.symm.trans made'
    rw [origin] at ofRun
    cases ofRun
  have uncancelled : (c₀.after history).isCancelled k.token = false := by
    rw [token]
    exact isCancelled_late new n
  refine ⟨made, ?_, ?_, fun e => ?_, fun payload => ?_, uncancelled, apart⟩
  · rw [result, Option.map_eq_none_iff]
  · simp [result, Ending.registerResult_eq_ok]
  · rw [result, Option.map_eq_some_iff]
    constructor
    · rintro ⟨ending, ended, same⟩
      obtain ⟨source, late, failed⟩ := Ending.registerResult_eq_error.1 same
      exact ⟨source, late, by simpa [ended] using failed⟩
    · rintro ⟨source, late, ended | ⟨payload, ended, panicked⟩⟩
      · exact ⟨_, ended, Ending.registerResult_eq_error.2 ⟨source, late, .inl rfl⟩⟩
      · exact ⟨_, ended,
          Ending.registerResult_eq_error.2 ⟨source, late, .inr ⟨payload, rfl, panicked⟩⟩⟩
  · simp [result, Ending.registerResult_eq_panicked]

theorem lateSuspend_after (new : c₀.New) (made : (c₀.after history).calls[n]? = some k)
    (origin : k.origin = .late p) (later : List Action) :
    ∃ l, k.Later l ∧ ((c₀.after history).after later).LateSuspend n l := by
  obtain ⟨l, made', kept⟩ := (later_after (c₀.after history) later).calls made
  rw [← after_append] at made' ⊢
  exact ⟨l, kept, lateSuspend_of_call new made' (kept.origin.trans origin)⟩

/-! ## The law -/

/-- **A registration either changes nothing or takes the activity in, and a late one is suspended on
the spot.** A level out of range is refused, and an activity that is registered already is left as
it is; both change nothing. Any other activity is taken in under the priority of the level, and
stays there until it is unregistered; one event tells of it, and nobody has been called by then. If
the server is running, that is all. Otherwise the registration makes one call, to the activity, to
suspend with the context of the latest attempt. Whatever happens afterwards, no run waits for this
call and nothing cancels its token; the result is there when the call has ended, and is that of the
call. -/
theorem registration_outcome (config : Config) (listeners : List Listener) (history : List Action)
    (a : Activity) (level : Nat) :
    let c := (create config listeners).after history
    let result := (c.registerAt a level).2
    let d := c.step (.register a level)
    (9 < level → d = c ∧ d.registered? result = some (.error (.invalidPriority level 0 9))) ∧
    (level ≤ 9 → ∃ p : Priority, p.level = level ∧
      (c.registry.priorityOf? a ≠ none → d = c ∧ d.registered? result = some .ok) ∧
      (c.registry.priorityOf? a = none →
        (∃ event drops, c.created d = event :: drops ∧
          (∀ other ∈ drops, other.kind = .subscriberOverflow) ∧ event.toNotice =
            { kind := .activityRegistered, activity := some a.name, priority := some p }) ∧
        (c.enroll a p).calls = c.calls ∧
        (∀ later, .unregister a ∉ later → d.Tracked a p later) ∧
        (c.state = .running → d = c.enroll a p ∧ d.registered? result = some .ok) ∧
        (c.state ≠ .running →
          d = { c.enroll a p with calls := c.calls ++ [c.lateCall a p] } ∧
          result = .late c.calls.length ∧
          ∀ later, ∃ k, (c.lateCall a p).Later k ∧
            (d.after later).LateSuspend c.calls.length k))) := by
  intro c result d
  have new : (create config listeners).New := new_create config listeners
  constructor
  · intro invalid
    obtain ⟨same, refused⟩ : d = c ∧ result = .refused (.invalidPriority level 0 9) :=
      Prod.ext_iff.1 (registerAt_of_lt invalid)
    exact ⟨same, by rw [refused]; rfl⟩
  · intro valid
    obtain ⟨p, asked, registers⟩ := registerAt_of_le (c := c) (a := a) valid
    refine ⟨p, asked, fun tracked => ?_, fun untracked => ?_⟩
    · obtain ⟨q, found⟩ := Option.ne_none_iff_exists'.1 tracked
      obtain ⟨same, done⟩ : d = c ∧ result = .done :=
        Prod.ext_iff.1 (registers.trans (register_of_tracked found))
      exact ⟨same, by rw [done]; rfl⟩
    · rw [register_of_untracked untracked] at registers
      obtain ⟨drops, created, about⟩ := created_enroll c a p
      -- The call, if there is one, leaves the registry and the hub as they are.
      have same : d.registry = (c.enroll a p).registry ∧ d.hub = (c.enroll a p).hub := by
        rw [show d = _ from congrArg Prod.fst registers]
        split <;> exact ⟨rfl, rfl⟩
      have taken : d.registry.priorityOf? a = some p := by
        rw [same.1, priorityOf?_enroll untracked]
      have told : c.created d = c.hub.next (.registered a p) :: drops := by
        rw [← created, Controller.created, same.2, Controller.created]
      refine ⟨⟨_, drops, told, about, rfl⟩, rfl, fun later kept => tracked_of_kept taken kept,
        fun running => ?_, fun notRunning => ?_⟩
      · rw [if_pos running] at registers
        obtain ⟨enrolled, done⟩ : d = c.enroll a p ∧ result = .done := Prod.ext_iff.1 registers
        exact ⟨enrolled, by rw [done]; rfl⟩
      · rw [if_neg notRunning] at registers
        obtain ⟨called, late⟩ : d = { c.enroll a p with calls := c.calls ++ [c.lateCall a p] } ∧
          result = .late c.calls.length := Prod.ext_iff.1 registers
        refine ⟨called, late, fun later => ?_⟩
        have made : d.calls[c.calls.length]? = some (c.lateCall a p) := by
          rw [called]
          exact List.getElem?_concat_length
        have now : d = (create config listeners).after (history ++ [.register a level]) :=
          (after_concat _ _ _).symm
        rw [now] at made ⊢
        exact lateSuspend_after new made rfl later

/-- An activity registers while the server is about to suspend. The attempt is cancelled, everything
is reset, the activity is registered once more, and then its call panics. -/
theorem registration_outcome_panicking :
    let a : Activity := ⟨"a", "a"⟩
    let c := (create { requestedState := .running } []).after [.suspend {}]
    let later : List Action := [.resume {}, .reset, .register a 3, .finish 0 (.panicked (.text "no"))]
    let d := (c.step (.register a 7)).after later
    c.registry.priorityOf? a = none ∧ c.state ≠ .running ∧ d.calls.length = 1 ∧
      (∃ p, p.level = 7 ∧ d.registry.priorityOf? a = some p) ∧
      d.registered? (.late 0) = some (.error (.lateSuspend "a" (.panicked "no"))) := by
  intro a c later d
  have untracked : c.registry.priorityOf? a = none := by decide
  have notRunning : c.state ≠ .running := by decide
  obtain ⟨p, level, -, enrolls⟩ :=
    (registration_outcome { requestedState := .running } [] [.suspend {}] a 7).2 (by decide)
  obtain ⟨-, -, tracked, -, late⟩ := enrolls untracked
  obtain ⟨k, kept, suspended⟩ := (late notRunning).2.2 later
  have ended : d.calls[0]? = some ⟨a, .suspend {}, .late 0, .late p,
      some (.panicked (.text "no"))⟩ := by
    obtain rfl : p = ⟨7, by decide⟩ := Priority.eq_of_level level
    decide
  cases suspended.made.symm.trans ended
  refine ⟨untracked, notRunning, by decide, ⟨p, level, ?_⟩, ?_⟩
  · exact (tracked later (by decide)).last
  · exact (suspended.error _).2 ⟨_, rfl, .inr ⟨_, rfl, rfl⟩⟩

end Controller

end Quiesce
