import Quiesce.Proofs.Calls
import Quiesce.Proofs.GroupOrder
/-!
# Whom a phase calls

A run looks at a group once in a phase: when it reaches it. Whom it calls there is settled at this
moment, whatever is registered and unregistered before and after (`targets_after`): the calls of a
phase are those to the members of the groups reached, each as it was then. No group is reached twice
(`pairwise_reached`), since those ahead of a run come after those that it has reached.
-/

namespace Quiesce

def CallOrigin.run? : CallOrigin → Option Nat
  | run id _ => some id
  | late _ => none

def CallOrigin.priority : CallOrigin → Priority
  | run _ q | late q => q

/-- The call is one that run `id` makes in this phase. -/
def Call.isOf (id : Nat) (phase : Phase) (k : Call) : Bool :=
  k.origin.run? = some id && k.request.phase = phase

/-- Under which priority the call is made, and to whom. -/
def Call.target (k : Call) : Priority × Activity :=
  (k.origin.priority, k.activity)

def Group.targets (g : Group) : List (Priority × Activity) :=
  g.members.map fun a => (g.priority, a)

theorem Phase.Before.ne {phase : Phase} {p q : Priority} (h : phase.Before p q) : p ≠ q := by
  rintro rfl
  cases phase <;> exact Nat.lt_irrefl _ h

theorem Call.isOf_iff {k : Call} {id : Nat} {phase : Phase} :
    k.isOf id phase = true ↔ k.origin = .run id k.origin.priority ∧ k.request.phase = phase := by
  cases h : k.origin with
  | run j q => simp [isOf, h, CallOrigin.run?, CallOrigin.priority]
  | late q => simp [isOf, h, CallOrigin.run?]

namespace Controller

variable {c d c₀ : Controller} {x : Action} {history : List Action} {id i : Nat} {r : Run}
  {p p' : PhaseRun} {k : Call} {q : Priority} {phase : Phase} {request : Request} {g : Group}

/-- Whom run `id` has called in this phase, in this order. -/
def targets (c : Controller) (id : Nat) (phase : Phase) : List (Priority × Activity) :=
  (c.calls.filter (Call.isOf id phase)).map Call.target

/-- The group that run `id` reaches in this phase by an action, with its members at this moment. -/
def reached? (c : Controller) (id : Nat) (phase : Phase) (x : Action) : Option Group :=
  match c.activeRun? id with
  | some (r, ⟨request, q :: _, none⟩) =>
    if x = .turn id ∧ request.phase = phase ∧ c.isCancelled (r.token id) = false then
      some ⟨q, c.registry.members q⟩
    else none
  | _ => none

/-- The groups that run `id` reaches in this phase in the course of a history, each with its members
at the moment when it is reached. -/
def reached (c : Controller) (id : Nat) (phase : Phase) : List Action → List Group
  | [] => []
  | x :: later => (c.reached? id phase x).toList ++ (c.step x).reached id phase later

/-! ## One action -/

theorem reached?_eq_some_iff :
    c.reached? id phase x = some g ↔ x = .turn id ∧ g.members = c.registry.members g.priority ∧
      ∃ request, request.phase = phase ∧ c.Reaches id request g.priority := by
  constructor
  · intro h
    unfold reached? at h
    split at h
    · rename_i r request q rest unresolved
      obtain ⟨run, active⟩ := activeRun?_eq_some.1 unresolved
      split at h
      · rename_i now
        cases h
        exact ⟨now.1, rfl, request, now.2.1, r, rest, run, active, now.2.2⟩
      · cases h
    · cases h
  · rintro ⟨rfl, members, request, rfl, r, rest, run, active, live⟩
    have unresolved := activeRun?_eq_some.2 ⟨run, active⟩
    obtain ⟨q, ms⟩ := g
    simp_all [reached?]

theorem Step.calls (hs : Step c x d) :
    (∃ call e, d.calls = c.calls.modify call fun k => k.finish e) ∨
      ∃ new, d.calls = c.calls ++ new ∧ ∀ k ∈ new, c.Makes x k := by
  have added : c.calls <+: d.calls → ∃ new, d.calls = c.calls ++ new ∧ ∀ k ∈ new, c.Makes x k := by
    rintro ⟨new, calls⟩
    refine ⟨new, calls.symm, fun k member => ?_⟩
    obtain ⟨j, hj⟩ := List.getElem?_of_mem member
    refine hs.makes (i := c.calls.length + j) ?_ (Nat.le_add_right _ _)
    rw [← calls, List.getElem?_append_right (Nat.le_add_right _ _), Nat.add_sub_cancel_left, hj]
  cases hs with
  | finished call e => exact .inl ⟨call, e, rfl⟩
  | moved id r p stage run active move => exact .inr (added move.calls)
  | reset | cancelled | resuming => exact .inr (added (by simp))
  | lateRegistered => exact .inr (added (List.prefix_append _ _))
  | _ => exact .inr (added List.prefix_rfl)

theorem map_filter_modify {α β : Type} {P : α → Bool} {f : α → β} {g : α → α}
    (same : ∀ a, P (g a) = P a ∧ f (g a) = f a) (l : List α) (i : Nat) :
    ((l.modify i g).filter P).map f = (l.filter P).map f := by
  induction l generalizing i with
  | nil => simp
  | cons a l ih =>
    cases i with
    | zero => cases h : P a <;> simp [same, h]
    | succ i => cases h : P a <;> simp [h, ih]

/-- A call of a run is made when the run reaches the group of the activity. -/
theorem Makes.reached (made : c.Makes x k) (own : k.isOf id phase = true) :
    ∃ g, c.reached? id phase x = some g := by
  obtain ⟨origin, asks⟩ := Call.isOf_iff.1 own
  cases made with
  | member id' q k reaches origin' member =>
    rw [origin'] at origin
    cases origin
    exact ⟨⟨q, c.registry.members q⟩,
      reached?_eq_some_iff.2 ⟨rfl, rfl, k.request, asks, reaches⟩⟩
  | late a level p valid untracked notRunning => cases origin

/-- **An action calls the members of the group that is reached by it, and nobody else.** -/
theorem targets_step (c : Controller) (id : Nat) (phase : Phase) (x : Action) :
    (c.step x).targets id phase =
      c.targets id phase ++ (c.reached? id phase x).toList.flatMap Group.targets := by
  cases reached : c.reached? id phase x with
  | some g =>
    obtain ⟨rfl, members, request, rfl, reaches⟩ := reached?_eq_some_iff.1 reached
    obtain ⟨new, calls, callees, made⟩ := reaches.calls_step
    have own : new.filter (Call.isOf id request.phase) = new :=
      List.filter_eq_self.2 fun k member => by
        obtain ⟨asks, origin, -⟩ := made k member
        simp [Call.isOf, CallOrigin.run?, asks, origin]
    have called : new.map Call.target = g.targets := by
      rw [Group.targets, members, ← callees, List.map_map]
      refine List.map_congr_left fun k member => ?_
      simp [Call.target, CallOrigin.priority, (made k member).2.1]
    simp [targets, calls, own, called]
  | none =>
    have silent : ∀ k, c.Makes x k → k.isOf id phase = false := by
      intro k made
      rw [← Bool.not_eq_true]
      intro own
      obtain ⟨g, now⟩ := made.reached own
      rw [reached] at now
      cases now
    rcases (step_spec c x).calls with ⟨call, e, calls⟩ | ⟨new, calls, made⟩
    · have same := map_filter_modify (P := Call.isOf id phase) (f := Call.target)
        (g := fun k => k.finish e) (fun k => ⟨rfl, rfl⟩) c.calls call
      simp [targets, calls, same]
    · have others : new.filter (Call.isOf id phase) = [] :=
        List.filter_eq_nil_iff.2 fun k member => by simp [silent k (made k member)]
      simp [targets, calls, List.filter_append, others]

theorem Reaches.runs_step (h : c.Reaches id request q) :
    ∃ r rest barrier?, c.runs[id]? = some r ∧ r.stage = .active ⟨request, q :: rest, none⟩ ∧
      (c.step (.turn id)).runs = (c.setStage id (.active ⟨request, rest, barrier?⟩)).runs := by
  obtain ⟨r, rest, run, active, live⟩ := h
  have unresolved := activeRun?_eq_some.2 ⟨run, active⟩
  cases members : c.registry.members q with
  | nil =>
    refine ⟨r, rest, none, run, active, ?_⟩
    simp [step, turn?, unresolved, PhaseRun.next, live, members]
  | cons a as =>
    refine ⟨r, rest, some ⟨q, .child (r.token id) c.calls.length,
      List.range' c.calls.length (a :: as).length⟩, run, active, ?_⟩
    simp [step, turn?, unresolved, PhaseRun.next, live, members, launch, PhaseRun.await, setStage]

/-! ## No group twice -/

/-- Run `id` has the group `q` behind it in this phase: it is in the phase and has only later groups
ahead, or the phase is over. -/
def Behind (c : Controller) (id : Nat) (phase : Phase) (q : Priority) : Prop :=
  ∃ r, c.runs[id]? = some r ∧ ∀ p, r.stage = .active p →
    p.request.phase = phase ∧ (∀ q' ∈ p.ahead, phase.Before q q') ∨
      phase = .prepare ∧ p.request.phase = .suspend

/-- A run that goes on does so in its phase, or it goes on from the prepare phase to the suspend
phase. -/
theorem Move.goesOn (move : c.Move id r p x (.active p') d) :
    p'.request = p.request ∧ p'.ahead.Sublist p.ahead ∨
      p.request.phase = .prepare ∧ p'.request.phase = .suspend := by
  cases move with
  | passedBarrier | succeeded => exact .inl ⟨rfl, .refl _⟩
  | passedGroup q rest live barrier ahead empty | launched q rest live barrier ahead inhabited =>
    refine .inl ⟨rfl, ?_⟩
    rw [ahead]
    exact List.sublist_cons_self q rest
  | prepared context barrier ahead request may => exact .inr ⟨by rw [request]; rfl, rfl⟩

theorem Step.behind (hs : Step c x d) (behind : c.Behind id phase q) : d.Behind id phase q := by
  obtain ⟨r, run, past⟩ := behind
  obtain ⟨s, run', -⟩ := hs.later.runs run
  refine ⟨s, run', fun p' active' => ?_⟩
  by_cases same : s = r
  · exact past p' (same ▸ active')
  · obtain ⟨p, stage, active, rfl, move⟩ := hs.move_of_ne run run' same
    cases active'
    rcases past p active with ⟨asks, later⟩ | ⟨prepare, asks⟩
    · rcases move.goesOn with ⟨request, ahead⟩ | ⟨prepares, suspends⟩
      · exact .inl ⟨request ▸ asks, fun q' member => later q' (ahead.subset member)⟩
      · exact .inr ⟨asks.symm.trans prepares, suspends⟩
    · rcases move.goesOn with ⟨request, -⟩ | ⟨prepares, -⟩
      · exact .inr ⟨prepare, request ▸ asks⟩
      · rw [asks] at prepares
        cases prepares

theorem Reaches.behind (h : c.Reaches id request q) (order : c.AllInOrder) :
    (c.step (.turn id)).Behind id request.phase q := by
  obtain ⟨r, rest, barrier?, run, active, runs⟩ := h.runs_step
  have sorted := (order.order run active).ahead
  refine ⟨{ r with stage := .active ⟨request, rest, barrier?⟩ }, ?_, fun p active' => ?_⟩
  · rw [runs, runs_setStage, if_pos rfl, run]
    rfl
  · cases active'
    exact .inl ⟨rfl, (List.pairwise_cons.1 sorted).1⟩

theorem Behind.before (behind : c.Behind id phase q) (reached : c.reached? id phase x = some g) :
    phase.Before q g.priority := by
  obtain ⟨r, run, past⟩ := behind
  obtain ⟨-, -, request, asks, r', rest, run', active, -⟩ := reached?_eq_some_iff.1 reached
  rw [run] at run'
  cases run'
  rcases past _ active with ⟨-, later⟩ | ⟨prepare, suspends⟩
  · exact later _ List.mem_cons_self
  · have both : Phase.prepare = Phase.suspend := prepare.symm.trans (asks.symm.trans suspends)
    cases both

/-! ## Histories -/

/-- **The calls of a phase are those to the members of the groups reached, as they were then.** -/
theorem targets_after (c : Controller) (id : Nat) (phase : Phase) (history : List Action) :
    (c.after history).targets id phase =
      c.targets id phase ++ (c.reached id phase history).flatMap Group.targets := by
  induction history generalizing c with
  | nil => simp [reached]
  | cons x later ih =>
    rw [after_cons, ih, targets_step, reached, List.flatMap_append, List.append_assoc]

theorem reached_append (c : Controller) (id : Nat) (phase : Phase) (h h' : List Action) :
    c.reached id phase (h ++ h') = c.reached id phase h ++ (c.after h).reached id phase h' := by
  induction h generalizing c with
  | nil => rfl
  | cons x h ih => simp [reached, ih]

theorem exists_reached (member : g ∈ c.reached id phase history) :
    ∃ before later, history = before ++ .turn id :: later ∧
      (c.after before).reached? id phase (.turn id) = some g := by
  induction history generalizing c with
  | nil => cases member
  | cons x later ih =>
    rw [reached, List.mem_append, Option.mem_toList] at member
    rcases member with now | afterwards
    · obtain ⟨rfl, -⟩ := reached?_eq_some_iff.1 now
      exact ⟨[], later, rfl, now⟩
    · obtain ⟨before, rest, rfl, found⟩ := ih afterwards
      exact ⟨x :: before, rest, rfl, found⟩

theorem Behind.after (behind : c.Behind id phase q) (history : List Action) :
    (c.after history).Behind id phase q :=
  after_induction behind (fun hs h => hs.behind h) history

/-- The groups reached later come after those that are behind the run. -/
theorem Behind.before_reached (behind : c.Behind id phase q)
    (member : g ∈ c.reached id phase history) : phase.Before q g.priority := by
  obtain ⟨before, later, rfl, found⟩ := exists_reached member
  exact (behind.after before).before found

/-- **No group is reached twice.** -/
theorem pairwise_reached (new : c₀.New) (id : Nat) (phase : Phase) (history later : List Action) :
    ((c₀.after history).reached id phase later).Pairwise
      fun g g' => phase.Before g.priority g'.priority := by
  induction later generalizing history with
  | nil => exact .nil
  | cons x later ih =>
    have rest := ih (history ++ [x])
    rw [after_concat] at rest
    rw [reached, List.pairwise_append]
    refine ⟨by cases (c₀.after history).reached? id phase x <;> simp, rest, ?_⟩
    intro g now g' afterwards
    rw [Option.mem_toList] at now
    obtain ⟨rfl, -, request, rfl, reaches⟩ := reached?_eq_some_iff.1 now
    exact (reaches.behind (allInOrder_after new history)).before_reached afterwards

theorem filter_targets {gs gs' : List Group} {ms : List Activity}
    (others : ∀ g ∈ gs ++ gs', g.priority ≠ q) :
    (((gs ++ ⟨q, ms⟩ :: gs').flatMap Group.targets).filter fun t => t.1 = q).map (·.2) = ms := by
  have none : ∀ gs : List Group, (∀ g ∈ gs, g.priority ≠ q) →
      (gs.flatMap Group.targets).filter (fun t => t.1 = q) = [] := by
    intro gs others
    rw [List.filter_eq_nil_iff]
    intro t member
    obtain ⟨g, there, target⟩ := List.mem_flatMap.1 member
    obtain ⟨a, -, rfl⟩ := List.mem_map.1 target
    simpa using others g there
  have own : (Group.targets ⟨q, ms⟩).filter (fun t => t.1 = q) = Group.targets ⟨q, ms⟩ := by
    simp [Group.targets]
  rw [List.flatMap_append, List.flatMap_cons, List.filter_append, List.filter_append, own,
    none gs fun g there => others g (List.mem_append_left _ there),
    none gs' fun g there => others g (List.mem_append_right _ there)]
  simp [Group.targets, Function.comp_def]

/-- Whom a run calls under a priority is settled when it reaches the group. -/
theorem Reaches.targets_after (new : c₀.New) {before : List Action}
    (reaches : (c₀.after before).Reaches id request q) (later : List Action) :
    (((c₀.after (before ++ .turn id :: later)).targets id request.phase).filter
      fun t => t.1 = q).map (·.2) = (c₀.after before).registry.members q := by
  have now : (c₀.after before).reached? id request.phase (.turn id) =
      some ⟨q, (c₀.after before).registry.members q⟩ :=
    reached?_eq_some_iff.2 ⟨rfl, rfl, request, rfl, reaches⟩
  have behind := reaches.behind (allInOrder_after new before)
  have ordered := pairwise_reached new id request.phase [] (before ++ .turn id :: later)
  have groups : c₀.reached id request.phase (before ++ .turn id :: later) =
      c₀.reached id request.phase before ++ ⟨q, (c₀.after before).registry.members q⟩ ::
        ((c₀.after before).step (.turn id)).reached id request.phase later := by
    rw [reached_append, reached, now]
    rfl
  rw [after_nil, groups, List.pairwise_append, List.pairwise_cons] at ordered
  obtain ⟨-, ⟨after, -⟩, earlier⟩ := ordered
  have nobody : c₀.targets id request.phase = [] := by
    obtain ⟨config, listeners, rfl⟩ := new
    rfl
  rw [Controller.targets_after, nobody, List.nil_append, groups]
  refine filter_targets fun g member => ?_
  rcases List.mem_append.1 member with there | there
  · exact (earlier g there _ List.mem_cons_self).ne
  · exact (after g there).ne.symm

/-! ## The law -/

/-- **A phase calls whoever is registered when it reaches the group.** Let a run reach a group at
its turn: all its earlier calls have returned. It then calls everyone who is registered under the
priority at this moment, each once, and nobody else. Whatever is registered and unregistered before
and after, these are all the calls that it makes in this phase under the priority; and the calls of
the phase altogether are those to the members of the groups that it has reached, each at its own
moment. So an activity is called under a priority only if registered under it when its group was
reached. -/
theorem called_as_registered (config : Config) (listeners : List Listener)
    (before later : List Action) (id : Nat) (request : Request) (q : Priority)
    (reaches : ((create config listeners).after before).Reaches id request q) :
    let c₀ := create config listeners
    let c := c₀.after before
    let history := before ++ .turn id :: later
    let members := c.registry.members q
    (∀ (i : Nat) (k : Call) (p : Priority), c.calls[i]? = some k → k.origin = .run id p →
      k.ending? = some .returned) ∧
    members.Nodup ∧ (∀ a, a ∈ members ↔ c.registry.priorityOf? a = some q) ∧
    (∃ new, (c.step (.turn id)).calls = c.calls ++ new ∧ new.map Call.activity = members ∧
      ∀ k ∈ new, k.request = request ∧ k.origin = .run id q ∧ k.ending? = none) ∧
    (((c₀.after history).targets id request.phase).filter fun t => t.1 = q).map (·.2) = members ∧
    (c₀.after history).targets id request.phase =
      (c₀.reached id request.phase history).flatMap Group.targets ∧
    (c₀.reached id request.phase history).Pairwise
      (fun g g' => request.phase.Before g.priority g'.priority) ∧
    ∀ p a, (p, a) ∈ (c₀.after history).targets id request.phase →
      ∃ before' later' request', history = before' ++ .turn id :: later' ∧
        request'.phase = request.phase ∧ (c₀.after before').Reaches id request' p ∧
        (c₀.after before').registry.priorityOf? a = some p := by
  intro c₀ c history members
  have new : c₀.New := new_create config listeners
  have targets : (c₀.after history).targets id request.phase =
      (c₀.reached id request.phase history).flatMap Group.targets :=
    targets_after c₀ id request.phase history
  refine ⟨?_, c.registry.nodup_members q, fun a => Registry.mem_members, reaches.calls_step,
    reaches.targets_after new later, targets, pairwise_reached new id request.phase [] history, ?_⟩
  · intro i k p made origin
    obtain ⟨r, rest, run, active, -⟩ := reaches
    exact ((allInOrder_after new before).order run active).returned_of_none rfl made origin
  · intro p a called
    rw [targets, List.mem_flatMap] at called
    obtain ⟨g, member, target⟩ := called
    obtain ⟨before', later', split, found⟩ := exists_reached member
    obtain ⟨-, members', request', asks, reaches'⟩ := reached?_eq_some_iff.1 found
    obtain ⟨b, there, same⟩ := List.mem_map.1 target
    cases same
    rw [members'] at there
    exact ⟨before', later', request', split, asks, reaches', Registry.mem_members.1 there⟩

/-- An activity that moves from the group it was called in to one ahead is called once more. -/
theorem called_as_registered_twice :
    let a : Activity := ⟨"a", "a"⟩
    let c₀ := create { requestedState := .running } []
    let before : List Action := [.register a 0, .suspend {}, .turn 0, .unregister a, .register a 1,
      .finish 0 .returned, .collect 0 0, .turn 0]
    let history := before ++ .turn 0 :: [.unregister a, .register a 2]
    (c₀.after before).Reaches 0 (.prepare {}) ⟨1, by decide⟩ ∧
      (c₀.after history).targets 0 .prepare = [(⟨0, by decide⟩, a), (⟨1, by decide⟩, a)] ∧
      (((c₀.after history).targets 0 .prepare).filter fun t => t.1 = ⟨1, by decide⟩).map (·.2) =
        [a] := by
  intro a c₀ before history
  have reaches : (c₀.after before).Reaches 0 (.prepare {}) ⟨1, by decide⟩ :=
    ⟨⟨.suspend {}, 1, .active ⟨.prepare {}, Priority.all.tail, none⟩⟩, Priority.all.tail.tail,
      by decide, rfl, by decide⟩
  obtain ⟨-, -, -, -, called, targets, -⟩ :=
    called_as_registered _ _ before [.unregister a, .register a 2] 0 (.prepare {}) _ reaches
  exact ⟨reaches, targets.trans (by decide), called.trans (by decide)⟩

end Controller

end Quiesce
