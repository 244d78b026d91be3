import Quiesce.Proofs.History
/-!
# Who is registered, and since when

An activity that is registered at the end of a history was registered all along (`Tracked`), or its
present registration was made in the course of the history (`RegisteredIn`): there is no third case
(`tracked_or_registeredIn`), since an activity changes its priority by registering anew only.
-/

namespace Quiesce.Controller

variable {c d : Controller} {x : Action} {later h h' : List Action} {a : Activity} {p : Priority}

/-- The activity is registered under the priority, now and after every action of the history. -/
def Tracked (c : Controller) (a : Activity) (p : Priority) : List Action → Prop
  | [] => c.registry.priorityOf? a = some p
  | x :: later => c.registry.priorityOf? a = some p ∧ (c.step x).Tracked a p later

/-- The present registration of the activity was made in the history `later`, between `before` and
`rest`. -/
structure RegisteredIn (c : Controller) (a : Activity) (p : Priority) (later before : List Action)
    (level : Nat) (rest : List Action) : Prop where
  split : later = before ++ .register a level :: rest
  valid : Priority.ofLevel level = .ok p
  untracked : (c.after before).registry.priorityOf? a = none
  since : ((c.after before).step (.register a level)).Tracked a p rest

/-! ## One action -/

/-- An activity that is registered after an action was registered before, or registers just now. -/
theorem Step.tracked (hs : Step c x d) (tracked : d.registry.priorityOf? a = some p) :
    c.registry.priorityOf? a = some p ∨
      ∃ level, x = .register a level ∧ Priority.ofLevel level = .ok p ∧
        c.registry.priorityOf? a = none := by
  have inserted : ∀ b level q, Priority.ofLevel level = .ok q → c.registry.priorityOf? b = none →
      (c.registry.insert b q).priorityOf? a = some p → x = .register b level →
      c.registry.priorityOf? a = some p ∨ ∃ level, x = .register a level ∧
        Priority.ofLevel level = .ok p ∧ c.registry.priorityOf? a = none := by
    intro b level q valid untracked found hx
    rw [Registry.priorityOf?_insert untracked] at found
    by_cases hab : a = b
    · subst hab
      rw [if_pos rfl] at found
      cases found
      exact .inr ⟨level, hx, valid, untracked⟩
    · rw [if_neg hab] at found
      exact .inl found
  cases hs with
  | registered b level q valid untracked running =>
    exact inserted b level q valid untracked tracked rfl
  | lateRegistered b level q valid untracked notRunning =>
    exact inserted b level q valid untracked tracked rfl
  | unregistered b q found =>
    have erased : (c.registry.erase b).priorityOf? a = some p := tracked
    rw [Registry.priorityOf?_erase] at erased
    split at erased
    · cases erased
    · exact .inl erased
  | moved id r p stage run active move => exact .inl (move.registry ▸ tracked)
  | resuming | reset | cancelled => exact .inl (by simpa using tracked)
  | _ => exact .inl tracked

theorem Step.keeps (hs : Step c x d) (tracked : c.registry.priorityOf? a = some p)
    (keeps : x ≠ .unregister a) : d.registry.priorityOf? a = some p := by
  have inserted : ∀ b q, c.registry.priorityOf? b = none →
      (c.registry.insert b q).priorityOf? a = some p := by
    intro b q untracked
    have other : a ≠ b := by
      rintro rfl
      rw [untracked] at tracked
      cases tracked
    rw [Registry.priorityOf?_insert untracked, if_neg other, tracked]
  cases hs with
  | registered b level q valid untracked running => exact inserted b q untracked
  | lateRegistered b level q valid untracked notRunning => exact inserted b q untracked
  | unregistered b q found =>
    have other : a ≠ b := fun same => keeps (by rw [same])
    exact (Registry.priorityOf?_erase a).trans ((if_neg other).trans tracked)
  | moved id r p stage run active move => exact move.registry ▸ tracked
  | resuming | reset | cancelled => simpa using tracked
  | _ => exact tracked

/-! ## Histories -/

theorem tracked_of_kept (tracked : c.registry.priorityOf? a = some p)
    (keeps : .unregister a ∉ later) : c.Tracked a p later := by
  induction later generalizing c with
  | nil => exact tracked
  | cons x later ih =>
    rw [List.mem_cons, not_or] at keeps
    exact ⟨tracked, ih ((step_spec c x).keeps tracked (Ne.symm keeps.1)) keeps.2⟩

theorem Tracked.now (tracked : c.Tracked a p later) : c.registry.priorityOf? a = some p := by
  cases later with
  | nil => exact tracked
  | cons x later => exact tracked.1

theorem Tracked.after (tracked : c.Tracked a p (h ++ h')) : (c.after h).Tracked a p h' := by
  induction h generalizing c with
  | nil => exact tracked
  | cons x h ih => exact ih tracked.2

theorem Tracked.last (tracked : c.Tracked a p later) :
    (c.after later).registry.priorityOf? a = some p := by
  rw [← List.append_nil later] at tracked
  exact tracked.after

/-- An activity that is registered now was registered all along, or registered in the meantime. -/
theorem tracked_or_registeredIn (tracked : (c.after later).registry.priorityOf? a = some p) :
    c.Tracked a p later ∨ ∃ before level rest, c.RegisteredIn a p later before level rest := by
  induction later generalizing c with
  | nil => exact .inl tracked
  | cons x later ih =>
    rcases ih tracked with since | ⟨before, level, rest, made⟩
    · rcases (step_spec c x).tracked since.now with found | ⟨level, rfl, valid, untracked⟩
      · exact .inl ⟨found, since⟩
      · exact .inr ⟨[], level, later, rfl, valid, untracked, since⟩
    · obtain ⟨rfl, valid, untracked, since⟩ := made
      exact .inr ⟨x :: before, level, rest, rfl, valid, untracked, since⟩

end Quiesce.Controller
