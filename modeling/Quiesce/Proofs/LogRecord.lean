import Quiesce.LogRecord
import Quiesce.Proofs.QuotedText
/-!
# Reading log records

What a record says of its event is read off the message, the number and the fields. For any event at
all this is the part of it that belongs to its kind (`event?_ofEvent`). An event that says what its
kind calls for, and no more, has no other part (`Notice.Complete.essential_eq`), so it is recovered
from its record (`event?_of_complete`), whatever the names and reasons in it are.
-/

namespace Quiesce

/-- The message under which the events of each kind are recorded. -/
def EventKind.messages : List (String × EventKind) :=
  [("suspend started", suspendStarted), ("suspend cancelled", suspendCancelled),
    ("suspend complete", suspendComplete), ("suspend failed", suspendFailed),
    ("resume complete", resumeComplete), ("resume failed", resumeFailed),
    ("activity registered", activityRegistered), ("activity unregistered", activityUnregistered),
    ("subscriber overflow", subscriberOverflow), ("subscriber panicked", subscriberPanicked)]

/-- The part of a notice that belongs to its kind. -/
def Notice.essential (n : Notice) : Notice where
  kind := n.kind
  activity := if .activity ∈ n.kind.particulars then n.activity else none
  priority := if .priority ∈ n.kind.particulars then n.priority else none
  phase := if n.kind = .resumeFailed then some .resume
    else if .phase ∈ n.kind.particulars then n.phase else none
  reason := if .reason ∈ n.kind.particulars then n.reason else none

namespace LogRecord

def text? (r : LogRecord) (name : String) : Option String :=
  (r.fields.lookup name).bind Text.readOption

def phase? (r : LogRecord) : Option Phase := (r.text? "phase").bind Phase.ofLabel?

def priority? (r : LogRecord) : Option Priority := do
  let shown ← r.fields.lookup "priority"
  Priority.all.find? fun p => Text.renderOption (some p.level) = shown

/-- The event that a record is about. Its level is not looked at. -/
def event? (r : LogRecord) : Option Event := do
  let kind ← EventKind.messages.lookup r.message
  return {
    seq := r.seq
    kind
    activity := r.text? (if kind.isSubscriberEvent then "subscriber" else "activity")
    priority := r.priority?
    phase := if kind = .resumeFailed then some .resume else r.phase?
    reason := r.text? "reason" }

/-! ## Fields

Each field is read as it was written; a particular that records of this kind do not have is not
found. -/

@[simp] theorem bind_ofLabel? (phase? : Option Phase) :
    (phase?.map Phase.label).bind Phase.ofLabel? = phase? := by
  cases phase? with
  | none => rfl
  | some phase => cases phase <;> rfl

/-- The levels of priorities are told apart by the way they are shown. -/
@[simp] theorem find?_renderOption (priority? : Option Priority) :
    (Priority.all.find? fun p =>
      Text.renderOption (some p.level) = Text.renderOption (priority?.map Priority.level)) =
        priority? := by
  cases priority? with
  | none => decide +kernel
  | some p =>
    have each : ∀ q ∈ Priority.all, (Priority.all.find? fun p =>
        Text.renderOption (some p.level) = Text.renderOption (some q.level)) = some q := by
      decide +kernel
    exact each p p.mem_all

theorem lookup_message (e : Event) : EventKind.messages.lookup (ofEvent e).message = some e.kind := by
  cases kind : e.kind <;> simp [ofEvent, kind, EventKind.messages, List.lookup_cons]

theorem activity_ofEvent (e : Event) :
    (ofEvent e).text? (if e.kind.isSubscriberEvent then "subscriber" else "activity") =
      e.essential.activity := by
  cases kind : e.kind <;>
    simp [ofEvent, kind, text?, List.lookup_cons, phaseField, activityField, subscriberField,
      Notice.essential, EventKind.particulars, EventKind.isSubscriberEvent]

theorem priority_ofEvent (e : Event) : (ofEvent e).priority? = e.essential.priority := by
  cases kind : e.kind <;>
    simp [ofEvent, kind, priority?, List.lookup_cons, phaseField, activityField, subscriberField,
      priorityField, reasonField, Notice.essential, EventKind.particulars]

theorem phase_ofEvent (e : Event) :
    (if e.kind = .resumeFailed then some .resume else (ofEvent e).phase?) = e.essential.phase := by
  cases kind : e.kind <;>
    simp [ofEvent, kind, phase?, text?, List.lookup_cons, phaseField, activityField, subscriberField,
      priorityField, reasonField, Notice.essential, EventKind.particulars]

theorem reason_ofEvent (e : Event) : (ofEvent e).text? "reason" = e.essential.reason := by
  cases kind : e.kind <;>
    simp [ofEvent, kind, text?, List.lookup_cons, phaseField, activityField, subscriberField,
      priorityField, reasonField, Notice.essential, EventKind.particulars]

/-- **A record says of its event all that belongs to its kind.** -/
theorem event?_ofEvent (e : Event) : (ofEvent e).event? = some ⟨e.essential, e.seq⟩ := by
  have seq : (ofEvent e).seq = e.seq := by cases kind : e.kind <;> simp [ofEvent, kind]
  rw [event?, lookup_message]
  simp only [Option.bind_eq_bind, Option.bind_some, activity_ofEvent, priority_ofEvent,
    phase_ofEvent, reason_ofEvent, seq]
  rfl

end LogRecord

namespace Notice

variable {n : Notice}

theorem Complete.has_eq_false (complete : n.Complete) {p : Particular}
    (other : p ∉ n.kind.particulars) : n.has p = false := by
  rw [complete.has_eq, List.contains_eq_mem, decide_eq_false other]

theorem Complete.essential_eq (complete : n.Complete) : n.essential = n := by
  have kept : ∀ {α : Type} (p : Particular) (said : Option α), n.has p = said.isSome →
      (if p ∈ n.kind.particulars then said else none) = said := by
    intro α p said own
    by_cases belongs : p ∈ n.kind.particulars
    · rw [if_pos belongs]
    · rw [complete.has_eq_false belongs] at own
      rw [if_neg belongs, Option.not_isSome_iff_eq_none.1 (Bool.eq_false_iff.1 own.symm)]
  have phase : (if n.kind = .resumeFailed then some .resume
      else if .phase ∈ n.kind.particulars then n.phase else none) = n.phase := by
    by_cases resume : n.kind = .resumeFailed
    · rw [if_pos resume, complete.phase_iff.2 resume]
    · rw [if_neg resume, kept .phase n.phase rfl]
  rw [essential, kept .activity n.activity rfl, kept .priority n.priority rfl, phase,
    kept .reason n.reason rfl]

end Notice

/-- **An event that says what its kind calls for, and no more, is recovered from its record.** -/
theorem LogRecord.event?_of_complete {e : Event} (complete : e.Complete) :
    (ofEvent e).event? = some e := by
  rw [event?_ofEvent, complete.essential_eq]

end Quiesce
