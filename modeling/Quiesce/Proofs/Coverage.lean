import Quiesce.Proofs.Calls
import Quiesce.Proofs.GroupOrder
import Quiesce.Proofs.Membership
import Quiesce.Proofs.Resolution
/-!
# Whom a successful run has reached

Two things make sure that everyone is suspended when an attempt succeeds: the run calls whoever is
registered when it reaches a group, and who registers later is called at registration, since the
server is not running while an attempt is live (`suspended_before_success`).

Resuming has the first of the two only. Whoever was registered when the resume run reached the group
is resumed, and is not suspended again before the run succeeds (`resumed_before_success`). Who
registers behind the run is suspended late and stays so (`late_registration_stays_suspended`).
-/

namespace Quiesce.Controller

variable {c d c₀ : Controller} {x : Action} {history later h h' : List Action} {id i j : Nat}
  {r s : Run} {p : PhaseRun} {k : Call} {a : Activity} {q : Priority} {request : Request}

/-! ## Those who are registered when the run reaches them -/

theorem Reaches.returned (new : c₀.New) (reaches : (c₀.after h).Reaches id request q)
    (tracked : (c₀.after h).registry.priorityOf? a = some q)
    (run : (c₀.after (h ++ .turn id :: h')).runs[id]? = some r) (active : r.stage = .active p)
    (barrier : p.barrier? = none) :
    ∃ i k, (c₀.after h).calls.length ≤ i ∧ (c₀.after (h ++ .turn id :: h')).calls[i]? = some k ∧
      k.activity = a ∧ k.request = request ∧ k.origin = .run id q ∧
      k.ending? = some .returned := by
  obtain ⟨i, k, isNew, hk, activity, request, origin⟩ := reaches.call tracked
  have order := (allInOrder_after new (h ++ .turn id :: h')).order run active
  rw [after_append, after_cons] at order ⊢
  obtain ⟨l, hl, hkl⟩ := (later_after _ h').calls hk
  have returned := order.returned_of_none barrier hl (hkl.origin.trans origin)
  exact ⟨i, l, isNew, hl, hkl.activity.trans activity, hkl.request.trans request,
    hkl.origin.trans origin, returned⟩

/-! ## Those who register later -/

theorem Live.during (live : d.Live id r p) {context : SuspendContext}
    (suspend : r.purpose = .suspend context) (coherent : c.Coherent) (later : c.Later d)
    (run : c.runs[id]? = some s) : c.state ≠ .running ∧ c.attempt.context = context := by
  obtain ⟨p', live'⟩ := live.before later run
  refine ⟨fun running => coherent.not_live_of_running running live', ?_⟩
  obtain ⟨t, run', hl⟩ := later.runs run
  rw [live.run] at run'
  cases run'
  have purpose := coherent.purpose_of_live live'
  rw [← hl.purpose, suspend] at purpose
  cases purpose
  rfl

theorem RegisteredIn.late_call {before rest : List Action} {level : Nat}
    (made : c.RegisteredIn a q later before level rest)
    (notRunning : (c.after before).state ≠ .running) :
    ∃ k, (c.after later).calls[(c.after before).calls.length]? = some k ∧ k.activity = a ∧
      k.request = .suspend (c.after before).attempt.context ∧ k.origin = .late q := by
  obtain ⟨rfl, valid, untracked, -⟩ := made
  have calls := calls_register valid untracked
  rw [if_neg notRunning] at calls
  have call : ((c.after before).step (.register a level)).calls[(c.after before).calls.length]? =
      some ⟨a, .suspend (c.after before).attempt.context, .late (c.after before).calls.length,
        .late q, none⟩ := by
    rw [calls, List.getElem?_concat_length]
  obtain ⟨k, hk, hl⟩ := (later_after _ rest).calls call
  rw [after_append, after_cons]
  exact ⟨k, hk, hl.activity, hl.request, hl.origin⟩

theorem Live.late_call (new : c₀.New) (live : (c₀.after (h ++ later)).Live id r p)
    {context : SuspendContext} (suspend : r.purpose = .suspend context)
    (started : (c₀.after h).runs[id]? = some s) {before rest : List Action} {level : Nat}
    (made : (c₀.after h).RegisteredIn a q later before level rest) :
    ∃ k, (c₀.after (h ++ later)).calls[((c₀.after h).after before).calls.length]? = some k ∧
      k.activity = a ∧ k.request = .suspend context ∧ k.origin = .late q := by
  obtain ⟨t, started', -⟩ := (later_after (c₀.after h) before).runs started
  have coherent : ((c₀.after h).after before).Coherent := (coherent_after new h).after before
  have upTo : ((c₀.after h).after before).Later (c₀.after (h ++ later)) := by
    rw [made.split, after_append, after_append]
    exact later_after _ _
  obtain ⟨notRunning, current⟩ := live.during suspend coherent upTo started'
  rw [after_append, ← current]
  exact made.late_call notRunning

/-! ## Suspending -/

/-- **Nobody escapes a successful suspend.** Take an activity that is registered when the attempt
succeeds. The run has reached the group of the activity in its suspend phase. If the activity was
registered then, and ever since, the run called it then and the call has returned. If not, it
registered after that, while the attempt was under way, and this registration called it to suspend.
-/
theorem suspended_before_success (config : Config) (listeners : List Listener)
    (history : List Action) (x : Action) (id : Nat) (r : Run) (context : SuspendContext)
    (run : ((create config listeners).after history).runs[id]? = some r)
    (suspend : r.purpose = .suspend context)
    (success : ((create config listeners).after history).Resolves x id .ok)
    (a : Activity) (q : Priority)
    (tracked :
      (((create config listeners).after history).step x).registry.priorityOf? a = some q) :
    let c₀ := create config listeners
    let d := (c₀.after history).step x
    (∃ before after, history = before ++ .turn id :: after ∧
      (c₀.after before).Reaches id (.suspend context) q) ∧
    ∀ before after, history = before ++ .turn id :: after →
      (c₀.after before).Reaches id (.suspend context) q →
      let b := c₀.after before
      (b.Tracked a q (.turn id :: after) →
        ∃ i k, b.calls.length ≤ i ∧ d.calls[i]? = some k ∧ k.activity = a ∧
          k.request = .suspend context ∧ k.origin = .run id q ∧ k.ending? = some .returned) ∧
      (¬ b.Tracked a q (.turn id :: after) →
        ∃ between level rest, b.RegisteredIn a q (.turn id :: after) between level rest ∧
          ∃ k, d.calls[(b.after between).calls.length]? = some k ∧ k.activity = a ∧
            k.request = .suspend context ∧ k.origin = .late q) := by
  intro c₀ d
  have new : c₀.New := new_create config listeners
  obtain ⟨p, active, move⟩ := success.move_of_run run
  obtain ⟨-, rfl, live, -⟩ :=
    move.suspended_of_ok (coherent_after new history) run active suspend
  have calls : d.calls = (c₀.after history).calls := move.calls_of_resolved
  replace tracked : (c₀.after history).registry.priorityOf? a = some q := move.registry ▸ tracked
  rw [calls]
  refine ⟨exists_reaches new run active (by simp), ?_⟩
  rintro before after rfl reaches b
  constructor
  · intro since
    exact reaches.returned new since.now run active rfl
  · intro gone
    rw [after_append] at tracked
    rcases tracked_or_registeredIn tracked with since | ⟨between, level, rest, made⟩
    · exact absurd since gone
    · obtain ⟨s, -, started, -, -⟩ := reaches
      exact ⟨between, level, rest, made, live.late_call new suspend started made⟩

/-- An activity registers in the first group when the suspend phase has just left it behind. -/
theorem suspended_before_success_late :
    let c₀ := create { requestedState := .running } []
    let before : List Action :=
      [.register ⟨"a", "a"⟩ 0, .suspend {}, .turn 0, .finish 0 .returned, .collect 0 0] ++
        List.replicate 11 (.turn 0)
    let after : List Action :=
      [.register ⟨"b", "b"⟩ 0, .finish 1 .returned, .collect 0 1] ++ List.replicate 10 (.turn 0)
    let c := c₀.after (before ++ .turn 0 :: after)
    let b := c₀.after before
    c.Resolves (.turn 0) 0 .ok ∧ b.Reaches 0 (.suspend {}) .first ∧
      (c.step (.turn 0)).registry.priorityOf? ⟨"b", "b"⟩ = some .first ∧
      ∃ between level rest,
        b.RegisteredIn ⟨"b", "b"⟩ .first (.turn 0 :: after) between level rest ∧
          ∃ k, (c.step (.turn 0)).calls[(b.after between).calls.length]? = some k ∧
            k.activity = ⟨"b", "b"⟩ ∧ k.request = .suspend {} ∧ k.origin = .late .first := by
  intro c₀ before after c b
  have run : c.runs[0]? = some ⟨.suspend {}, 1, .active ⟨.suspend {}, [], none⟩⟩ := by
    decide +kernel
  have success : c.Resolves (.turn 0) 0 .ok := ⟨by decide +kernel, by decide +kernel⟩
  have reaches : b.Reaches 0 (.suspend {}) .first :=
    ⟨⟨.suspend {}, 1, .active (.start (.suspend {}))⟩, Priority.all.tail, by decide, rfl, by decide⟩
  have tracked : (c.step (.turn 0)).registry.priorityOf? ⟨"b", "b"⟩ = some .first := by decide
  have absent : b.registry.priorityOf? ⟨"b", "b"⟩ = none := by decide
  have law := suspended_before_success _ _ _ _ 0 _ {} run rfl success ⟨"b", "b"⟩ .first tracked
  refine ⟨success, reaches, tracked, (law.2 before after rfl reaches).2 fun since => ?_⟩
  rw [since.now] at absent
  cases absent

/-! ## Resuming -/

/-- Every call that asked the activity to suspend was followed by one that asked it to resume. -/
def ResumedSince (c : Controller) (a : Activity) : Prop :=
  ∀ j l, c.calls[j]? = some l → l.activity = a → l.request.phase = .suspend →
    ∃ (i : Nat) (k : Call), j < i ∧ c.calls[i]? = some k ∧ k.activity = a ∧
      k.request.phase = .resume

/-- No attempt is live now or at any time of the history. -/
def Calm (c : Controller) (later : List Action) : Prop :=
  ∀ before rest, later = before ++ rest →
    (c.after before).Coherent ∧ ∀ id r p, ¬ (c.after before).Live id r p

theorem Calm.after (calm : c.Calm (h ++ h')) : (c.after h).Calm h' := by
  rintro before rest rfl
  rw [← after_append]
  exact calm (h ++ before) rest (by simp)

/-- From the start of a resume run to its success no attempt is live: it would be the current one,
which the resume has cancelled. -/
theorem calm_of_resume {context : ResumeContext} (new : c₀.New)
    (started : (c₀.after h).runs[id]? = some s) (run : (c₀.after (h ++ h')).runs[id]? = some r)
    (resume : r.purpose = .resume context)
    (current : (c₀.after (h ++ h')).attempt.generation = r.generation) : (c₀.after h).Calm h' := by
  rintro before rest rfl
  obtain ⟨t, started', -⟩ := (later_after (c₀.after h) before).runs started
  rw [← List.append_assoc] at run current
  rw [← after_append] at started' ⊢
  have coherent := coherent_after new (h ++ before)
  refine ⟨coherent, fun j u p => ?_⟩
  have grow := later_after (c₀.after (h ++ before)) rest
  rw [← after_append] at grow
  obtain ⟨r', run', hl⟩ := grow.runs started'
  rw [run] at run'
  cases run'
  -- The run has the current generation at its end, so it has had it all along.
  have := generation_le new started'
  have := grow.generation_le
  have := hl.generation
  exact coherent.not_live_of_resume started' (hl.purpose ▸ resume) (by omega)

theorem Makes.untracked (made : c.Makes x k) (calm : c.Calm later)
    (suspends : k.request.phase = .suspend) : c.registry.priorityOf? k.activity = none := by
  obtain ⟨coherent, quiet⟩ := calm [] later rfl
  cases made with
  | member id q k reaches origin member =>
    obtain ⟨r, rest, run, active, uncancelled⟩ := reaches
    cases request : k.request with
    | suspend context =>
      have purpose : r.purpose = .suspend context := coherent.purpose_eq run active request
      exact absurd ⟨run, active, ⟨context, purpose⟩, uncancelled⟩ (quiet id r _)
    | prepare context | resume context => rw [request] at suspends; cases suspends
  | late a level p valid untracked notRunning => exact untracked

/-- An activity that stays registered while no attempt is live is not asked to suspend. -/
theorem Tracked.lt_of_suspend (tracked : c.Tracked a q later) (calm : c.Calm later)
    (hk : (c.after later).calls[i]? = some k) (activity : k.activity = a)
    (suspends : k.request.phase = .suspend) : i < c.calls.length := by
  by_contra isNew
  obtain ⟨before, x, rest, l, rfl, made, -, hl⟩ := call_made hk (Nat.le_of_not_lt isNew)
  have untracked := made.untracked calm.after (hl.request ▸ suspends)
  rw [← hl.activity, activity, tracked.after.now] at untracked
  cases untracked

/-- While no attempt is live, an activity is asked to suspend after its registration only by the
registration itself, and only if the server was not running. -/
theorem RegisteredIn.eq_of_suspend {before rest : List Action} {level : Nat}
    (made : c.RegisteredIn a q later before level rest) (calm : c.Calm later)
    (hk : (c.after later).calls[i]? = some k) (activity : k.activity = a)
    (suspends : k.request.phase = .suspend) (since : (c.after before).calls.length ≤ i) :
    (c.after before).state ≠ .running ∧ i = (c.after before).calls.length := by
  obtain ⟨rfl, valid, untracked, tracked⟩ := made
  rw [after_append, after_cons] at hk
  have since' : ((c.after before).step (.register a level)).Calm rest :=
    Calm.after (h := [.register a level]) calm.after
  have lt := tracked.lt_of_suspend since' hk activity suspends
  rw [calls_register valid untracked] at lt
  split at lt
  · omega
  · rename_i notRunning
    simp only [List.length_append, List.length_singleton] at lt
    exact ⟨notRunning, by omega⟩

/-- **Whoever a successful resume run found is resumed.** Take an activity that is registered when
the run succeeds. The run has reached the group of the activity. If the activity was registered
then, and ever since, the run called it then, the call has returned, and nobody asked the activity
to suspend after that. If not, it registered behind the run; since then it was asked to suspend only
by this registration, which did so exactly if the server was not running. -/
theorem resumed_before_success (config : Config) (listeners : List Listener)
    (history : List Action) (x : Action) (id : Nat) (r : Run) (context : ResumeContext)
    (run : ((create config listeners).after history).runs[id]? = some r)
    (resume : r.purpose = .resume context)
    (success : ((create config listeners).after history).Resolves x id .ok)
    (a : Activity) (q : Priority)
    (tracked :
      (((create config listeners).after history).step x).registry.priorityOf? a = some q) :
    let c₀ := create config listeners
    let d := (c₀.after history).step x
    d.state = .running ∧
    (∃ before after, history = before ++ .turn id :: after ∧
      (c₀.after before).Reaches id (.resume context) q) ∧
    ∀ before after, history = before ++ .turn id :: after →
      (c₀.after before).Reaches id (.resume context) q →
      let b := c₀.after before
      (b.Tracked a q (.turn id :: after) → d.ResumedSince a ∧
        ∃ i k, b.calls.length ≤ i ∧ d.calls[i]? = some k ∧ k.activity = a ∧
          k.request = .resume context ∧ k.origin = .run id q ∧ k.ending? = some .returned) ∧
      (¬ b.Tracked a q (.turn id :: after) →
        ∃ between level rest, b.RegisteredIn a q (.turn id :: after) between level rest ∧
          let e := b.after between
          (e.state ≠ .running → ∃ k, d.calls[e.calls.length]? = some k ∧ k.activity = a ∧
            k.request = .suspend e.attempt.context ∧ k.origin = .late q) ∧
          ∀ i k, d.calls[i]? = some k → k.activity = a → k.request.phase = .suspend →
            e.calls.length ≤ i → e.state ≠ .running ∧ i = e.calls.length) := by
  intro c₀ d
  have new : c₀.New := new_create config listeners
  obtain ⟨p, active, move⟩ := success.move_of_run run
  obtain ⟨-, rfl, current, hd⟩ :=
    move.resumed_of_ok (coherent_after new history) run active resume
  have state : d.state = .running := congrArg Controller.state hd
  have calls : d.calls = (c₀.after history).calls := move.calls_of_resolved
  replace tracked : (c₀.after history).registry.priorityOf? a = some q := move.registry ▸ tracked
  unfold ResumedSince
  rw [calls]
  refine ⟨state, exists_reaches new run active (by simp), ?_⟩
  rintro before after rfl reaches b
  have ⟨s, _, started, _, _⟩ := reaches
  have calm : b.Calm (.turn id :: after) := calm_of_resume new started run resume current
  constructor
  · intro since
    obtain ⟨i, k, isNew, hk, activity, request, rest⟩ := reaches.returned new since.now run active rfl
    refine ⟨fun j l hl asked suspends => ⟨i, k, ?_, hk, activity, by rw [request]; rfl⟩,
      i, k, isNew, hk, activity, request, rest⟩
    rw [after_append] at hl
    exact Nat.lt_of_lt_of_le (since.lt_of_suspend calm hl asked suspends) isNew
  · intro gone
    rw [after_append] at tracked ⊢
    rcases tracked_or_registeredIn tracked with since | ⟨between, level, rest, made⟩
    · exact absurd since gone
    · exact ⟨between, level, rest, made, made.late_call,
        fun i k hk asked suspends => made.eq_of_suspend calm hk asked suspends⟩

/-- A resume run finds an activity in the last group that it reaches. -/
theorem resumed_before_success_last :
    let c₀ := create {} []
    let before : List Action :=
      [.register ⟨"a", "a"⟩ 0, .finish 0 .returned, .resume {}] ++ List.replicate 9 (.turn 0)
    let after : List Action := [.finish 1 .returned, .collect 0 1, .turn 0]
    let c := c₀.after (before ++ .turn 0 :: after)
    c.Resolves (.turn 0) 0 .ok ∧ (c₀.after before).Reaches 0 (.resume {}) .first ∧
      (c.step (.turn 0)).registry.priorityOf? ⟨"a", "a"⟩ = some .first ∧
      (c₀.after before).Tracked ⟨"a", "a"⟩ .first (.turn 0 :: after) ∧
      (c.step (.turn 0)).ResumedSince ⟨"a", "a"⟩ := by
  intro c₀ before after c
  have run : c.runs[0]? = some ⟨.resume {}, 0, .active ⟨.resume {}, [], none⟩⟩ := by decide
  have success : c.Resolves (.turn 0) 0 .ok := ⟨by decide, by decide⟩
  have reaches : (c₀.after before).Reaches 0 (.resume {}) .first :=
    ⟨⟨.resume {}, 0, .active ⟨.resume {}, [.first], none⟩⟩, [], by decide, rfl, by decide⟩
  have tracked : (c.step (.turn 0)).registry.priorityOf? ⟨"a", "a"⟩ = some .first := by decide
  have since : (c₀.after before).Tracked ⟨"a", "a"⟩ .first (.turn 0 :: after) :=
    ⟨by decide, by decide, by decide, by decide, show _ = _ by decide⟩
  have law := resumed_before_success _ _ _ _ 0 _ {} run rfl success ⟨"a", "a"⟩ .first tracked
  exact ⟨success, reaches, tracked, since, ((law.2.2 before after rfl reaches).1 since).1⟩

/-- Who registers behind a resume run is not resumed by it, though the run succeeds. -/
theorem late_registration_stays_suspended :
    let c := (create {} []).after <|
      [.register ⟨"a", "a"⟩ 0, .finish 0 .returned, .resume {}] ++ List.replicate 10 (.turn 0) ++
        [.register ⟨"b", "b"⟩ 9, .finish 2 .returned, .finish 1 .returned, .collect 0 1, .turn 0]
    let d := c.step (.turn 0)
    c.Resolves (.turn 0) 0 .ok ∧ d.state = .running ∧
      d.registry.priorityOf? ⟨"b", "b"⟩ = some .last ∧ ¬ d.ResumedSince ⟨"b", "b"⟩ := by
  intro c d
  refine ⟨⟨by decide, by decide⟩, by decide, by decide, fun since => ?_⟩
  have asked : d.calls[2]? = some ⟨⟨"b", "b"⟩, .suspend .boot, .late 2, .late .last,
    some .returned⟩ := by decide
  obtain ⟨i, k, isLater, hk, -⟩ := since 2 _ asked rfl rfl
  have last : d.calls.length = 3 := by decide
  have := (List.getElem?_eq_some_iff.1 hk).1
  omega

end Quiesce.Controller
