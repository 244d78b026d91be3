import Quiesce.Proofs.LiveAttempt
/-!
# What a run reports

A run reports its outcome, and nothing else: the events that its steps create are at most one, at
its last move, of the kind that the outcome calls for (`reports_eq`). An event may cause drops at
the listeners, which are events too; those about listeners are left aside here.
-/

namespace Quiesce

/-- The kind of event that the outcome of a run calls for. Nothing is told of a run that is under
way or was canceled. -/
def Run.report? (r : Run) : Option EventKind :=
  match r.purpose, r.stage with
  | .suspend _, .resolved .ok => some .suspendComplete
  | .suspend _, .resolved (.error (.aborted _)) => some .suspendFailed
  | .suspend _, .resolved (.error (.suspendFailed _)) => some .suspendFailed
  | .resume _, .resolved .ok => some .resumeComplete
  | .resume _, .resolved (.error (.resumeFailed _)) => some .resumeFailed
  | _, _ => none

theorem Run.report?_of_active {r : Run} {p : PhaseRun} (active : r.stage = .active p) :
    r.report? = none := by
  unfold report?
  rw [active]
  cases r.purpose <;> rfl

namespace Controller

variable {c d c₀ : Controller} {x : Action} {history : List Action} {id : Nat} {r : Run}
  {p : PhaseRun} {stage : RunStage} {n : Notice}

/-- The events created between two controllers, oldest first. -/
def created (c d : Controller) : List Event :=
  d.hub.journal.toList.drop c.hub.journal.size

/-- The kinds of the events created in between, except for those about listeners. -/
def told (c d : Controller) : List EventKind :=
  ((c.created d).map (·.kind)).filter fun kind => !kind.isSubscriberEvent

/-- What the steps of run `id` tell in the course of a history. -/
def reports (c : Controller) (id : Nat) : List Action → List EventKind
  | [] => []
  | x :: later =>
    (if x.run? = some id then c.told (c.step x) else []) ++ (c.step x).reports id later

/-! ## One action -/

theorem created_of_journal {es : List Event}
    (journal : d.hub.journal.toList = c.hub.journal.toList ++ es) : c.created d = es := by
  rw [created, journal, ← Array.length_toList, List.drop_left]

theorem told_of_hub (hub : d.hub = c.hub) : c.told d = [] := by
  have nothing : c.created d = [] := created_of_journal (by simp [hub])
  rw [told, nothing]
  rfl

theorem created_emit (hub : d.hub = c.hub) (n : Notice) :
    ∃ drops, c.created (d.emit n) = c.hub.next n :: drops ∧
      ∀ e ∈ drops, e.kind = .subscriberOverflow := by
  obtain ⟨drops, journal, about⟩ := Hub.journal_emit c.hub n
  exact ⟨drops, created_of_journal (by rw [← journal, ← hub]; rfl), about⟩

theorem told_emit (hub : d.hub = c.hub) (server : n.kind.isSubscriberEvent = false) :
    c.told (d.emit n) = [n.kind] := by
  obtain ⟨drops, created, about⟩ := created_emit hub n
  have rest : (drops.map (·.kind)).filter (fun kind => !kind.isSubscriberEvent) = [] := by
    rw [List.filter_eq_nil_iff]
    intro kind member
    obtain ⟨e, he, rfl⟩ := List.mem_map.1 member
    rw [about e he]
    decide
  rw [told, created, List.map_cons, List.filter_cons, rest]
  simp [Hub.next, server]

/-- A move tells what the stage that it leads to calls for. -/
theorem Move.told (move : c.Move id r p x stage d) (h : c.Coherent) (run : c.runs[id]? = some r)
    (active : r.stage = .active p) : c.told d = (Run.report? { r with stage }).toList := by
  cases move with
  | gaveUp why =>
    refine Eq.trans (told_of_hub rfl) ?_
    cases r.purpose <;> rfl
  | suspended context barrier ahead request may =>
    have purpose : r.purpose = .suspend context := h.purpose_eq run active request
    refine Eq.trans (told_emit rfl rfl) ?_
    simp [Run.report?, purpose, Notice.suspendComplete]
  | resumed context barrier ahead request current =>
    have purpose : r.purpose = .resume context := h.purpose_eq run active request
    refine Eq.trans (told_emit rfl rfl) ?_
    simp [Run.report?, purpose, Notice.resumeComplete]
  | failed call b k ending e live barrier pending made ended error =>
    have purpose := h.asks run active
    cases request : p.request with
    | prepare context | suspend context | resume context =>
      rw [request] at purpose
      refine Eq.trans (told_emit (by simp [resolve]) rfl) ?_
      simp [Run.report?, purpose, Request.purpose, Request.phase, SuspendError.ofPhase,
        Notice.phaseFailed]
  | _ =>
    rw [Run.report?_of_active rfl]
    exact told_of_hub rfl

theorem told_listeners (c : Controller) (x : ListenerAction) :
    c.told { c with hub := c.hub.stepListeners x } = [] := by
  rcases Hub.journal_stepListeners c.hub x with same | ⟨name, info, journal⟩
  · have nothing : c.created { c with hub := c.hub.stepListeners x } = [] :=
      created_of_journal (by simp [same])
    rw [told, nothing]
    rfl
  · have panic : c.created { c with hub := c.hub.stepListeners x } =
        [c.hub.next (.panicked name info)] := created_of_journal (by simp [journal])
    rw [told, panic]
    rfl

theorem Step.told_of_request (hs : Step c x d) (request : x.run? = none) :
    c.told d = [] ∨ ∃ kind, c.told d = [kind] ∧ kind ∈ [EventKind.suspendStarted,
      .suspendCancelled, .activityRegistered, .activityUnregistered] := by
  cases hs with
  | idle | finished => exact .inl (told_of_hub rfl)
  | reset | cancelled => exact .inl (told_of_hub (by simp))
  | opened => exact .inr ⟨_, told_emit rfl rfl, by simp [Notice.suspendStarted]⟩
  | resuming => exact .inr ⟨_, told_emit (by simp) rfl, by simp [Notice.suspendCancelled]⟩
  | registered | lateRegistered => exact .inr ⟨_, told_emit rfl rfl, by simp [Notice.registered]⟩
  | unregistered => exact .inr ⟨_, told_emit rfl rfl, by simp [Notice.unregistered]⟩
  | moved id r p stage run active move => rw [move.run?_eq] at request; cases request
  | listeners x => exact .inl (told_listeners c x)

/-- A step of a run adds what is due to what was told of the run before. -/
theorem Step.reports (hs : Step c x d) (h : c.Coherent) :
    (c.runs[id]?.bind Run.report?).toList ++ (if x.run? = some id then c.told d else []) =
      (d.runs[id]?.bind Run.report?).toList := by
  by_cases own : x.run? = some id
  · rw [if_pos own]
    rcases hs.of_run? own with rfl | ⟨r, p, stage, run, active, move⟩
    · rw [told_of_hub rfl, List.append_nil]
    · rw [move.runs, runs_setStage, if_pos rfl, run, move.told h run active]
      simp [Run.report?_of_active active]
  · rw [if_neg own, List.append_nil]
    cases before : c.runs[id]? with
    | some r =>
      obtain ⟨s, after, -⟩ := hs.later.runs before
      by_cases same : s = r
      · rw [after, same]
      · obtain ⟨p, stage, -, -, move⟩ := hs.move_of_ne before after same
        exact absurd move.run?_eq own
    | none =>
      cases after : d.runs[id]? with
      | none => rfl
      | some s =>
        -- A run that has just been started has nothing to report.
        obtain ⟨-, starts⟩ := hs.newRun after (List.getElem?_eq_none_iff.1 before)
        have unreported : s.report? = none := by cases starts <;> exact Run.report?_of_active rfl
        simp [unreported]

/-! ## Histories -/

theorem reports_append (c : Controller) (id : Nat) (h h' : List Action) :
    c.reports id (h ++ h') = c.reports id h ++ (c.after h).reports id h' := by
  induction h generalizing c with
  | nil => rfl
  | cons x h ih => simp [Controller.reports, ih]

theorem reports_concat (c : Controller) (id : Nat) (h : List Action) (x : Action) :
    c.reports id (h ++ [x]) =
      c.reports id h ++ if x.run? = some id then (c.after h).told ((c.after h).step x) else [] := by
  simp [reports_append, Controller.reports]

/-- **A run reports its outcome once.** -/
theorem reports_eq (new : c₀.New) (history : List Action) (id : Nat) :
    c₀.reports id history = ((c₀.after history).runs[id]?.bind Run.report?).toList := by
  induction history using List.reverseRecOn with
  | nil => simp [Controller.reports, new.runs]
  | append_singleton h x ih =>
    rw [reports_concat, ih, after_concat]
    exact (step_spec (c₀.after h) x).reports (coherent_after new h)

theorem reports_since (new : c₀.New) (run : (c₀.after history).runs[id]? = some r)
    (unresolved : r.outcome? = none) (later : List Action) :
    (c₀.after history).reports id later =
      ((c₀.after (history ++ later)).runs[id]?.bind Run.report?).toList := by
  obtain ⟨p, active⟩ := Run.outcome?_eq_none.1 unresolved
  have before : c₀.reports id history = [] := by
    simp [reports_eq new, run, Run.report?_of_active active]
  rw [← reports_eq new, reports_append, before, List.nil_append]

end Controller

end Quiesce
