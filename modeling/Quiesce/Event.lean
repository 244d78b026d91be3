import Quiesce.Activity
/-!
# Events

A *notice* says that something happened; an *event* is a notice with its number. Numbers are given
in the order of creation, one to each event, also to events that nobody receives. The types `Event`
and `EventKind`; the time at which an event was created is left out.
-/

namespace Quiesce

/-- What an event is about. -/
inductive EventKind
  | suspendStarted
  /-- A resume was requested while the server was not running. -/
  | suspendCancelled
  | suspendComplete
  | suspendFailed
  | resumeComplete
  | resumeFailed
  | activityRegistered
  | activityUnregistered
  /-- A listener panicked over an event. -/
  | subscriberPanicked
  /-- An event was dropped for a listener. -/
  | subscriberOverflow
deriving DecidableEq, Repr

namespace EventKind

def all : List EventKind :=
  [suspendStarted, suspendCancelled, suspendComplete, suspendFailed, resumeComplete, resumeFailed,
    activityRegistered, activityUnregistered, subscriberPanicked, subscriberOverflow]

def name : EventKind → String
  | suspendStarted => "SuspendStarted"
  | suspendCancelled => "SuspendCancelled"
  | suspendComplete => "SuspendComplete"
  | suspendFailed => "SuspendFailed"
  | resumeComplete => "ResumeComplete"
  | resumeFailed => "ResumeFailed"
  | activityRegistered => "ActivityRegistered"
  | activityUnregistered => "ActivityUnregistered"
  | subscriberPanicked => "SubscriberPanicked"
  | subscriberOverflow => "SubscriberOverflow"

def ofName? (s : String) : Option EventKind :=
  all.find? fun k => k.name = s

/-- The event tells of a listener's health, not of the server's state. -/
def isSubscriberEvent : EventKind → Bool
  | subscriberPanicked | subscriberOverflow => true
  | _ => false

end EventKind

inductive DropReason
  /-- Its queue is full. -/
  | full
  /-- Nobody takes from its queue any more. -/
  | closed
deriving DecidableEq, Repr

def DropReason.label : DropReason → String
  | full => "full"
  | closed => "closed"

/-- Something that happened, with the particulars that its kind calls for. -/
structure Notice where
  kind : EventKind
  /-- The name of the activity, or of the listener. -/
  activity : Option String := none
  priority : Option Priority := none
  phase : Option Phase := none
  reason : Option String := none
deriving DecidableEq, Repr

namespace Notice

def suspendStarted : Notice := { kind := .suspendStarted }

def suspendCancelled : Notice := { kind := .suspendCancelled }

def suspendComplete : Notice := { kind := .suspendComplete }

def resumeComplete : Notice := { kind := .resumeComplete }

/-- A phase stopped at a failed call. The reason is the error's text for display. -/
def phaseFailed (phase : Phase) (f : Failure) : Notice where
  kind := match phase with
    | .prepare | .suspend => .suspendFailed
    | .resume => .resumeFailed
  activity := some f.activity
  priority := some f.priority
  phase := some phase
  reason := some f.error.display

def registered (a : Activity) (p : Priority) : Notice where
  kind := .activityRegistered
  activity := some a.name
  priority := some p

def unregistered (a : Activity) (p : Priority) : Notice where
  kind := .activityUnregistered
  activity := some a.name
  priority := some p

/-- An event was dropped for the named listener. -/
def overflow (listener : String) (reason : String) : Notice where
  kind := .subscriberOverflow
  activity := some listener
  reason := some reason

/-- The named listener panicked over an event. -/
def panicked (listener : String) (info : String) : Notice where
  kind := .subscriberPanicked
  activity := some listener
  reason := some info

end Notice

/-! ## Particulars -/

/-- What a notice can say besides its kind. -/
inductive Particular
  | activity
  | priority
  | phase
  | reason
deriving DecidableEq, Repr

/-- What notices of a kind say besides their kind. -/
def EventKind.particulars : EventKind → List Particular
  | suspendStarted | suspendCancelled | suspendComplete | resumeComplete => []
  | suspendFailed | resumeFailed => [.activity, .priority, .phase, .reason]
  | activityRegistered | activityUnregistered => [.activity, .priority]
  | subscriberPanicked | subscriberOverflow => [.activity, .reason]

namespace Notice

/-- The notice says something of this. -/
def has (n : Notice) : Particular → Bool
  | .activity => n.activity.isSome
  | .priority => n.priority.isSome
  | .phase => n.phase.isSome
  | .reason => n.reason.isSome

/-- The notice says all that its kind calls for, and no more. -/
structure Complete (n : Notice) : Prop where
  has_eq : ∀ p, n.has p = n.kind.particulars.contains p
  /-- It is resuming that fails when a resume fails. -/
  phase_iff : n.phase = some .resume ↔ n.kind = .resumeFailed

theorem complete_of_plain {kind : EventKind} (plain : kind.particulars = []) :
    Complete { kind } where
  has_eq p := by
    rw [plain]
    cases p <;> rfl
  phase_iff := by cases kind <;> simp [EventKind.particulars] at plain ⊢

theorem complete_phaseFailed (phase : Phase) (f : Failure) : (phaseFailed phase f).Complete where
  has_eq p := by cases phase <;> cases p <;> rfl
  phase_iff := by cases phase <;> simp [phaseFailed]

theorem complete_registered (a : Activity) (p : Priority) : (registered a p).Complete where
  has_eq q := by cases q <;> rfl
  phase_iff := by simp [registered]

theorem complete_unregistered (a : Activity) (p : Priority) : (unregistered a p).Complete where
  has_eq q := by cases q <;> rfl
  phase_iff := by simp [unregistered]

theorem complete_overflow (listener reason : String) : (overflow listener reason).Complete where
  has_eq p := by cases p <;> rfl
  phase_iff := by simp [overflow]

theorem complete_panicked (listener info : String) : (panicked listener info).Complete where
  has_eq p := by cases p <;> rfl
  phase_iff := by simp [panicked]

end Notice

structure Event extends Notice where
  seq : Nat
deriving DecidableEq, Repr

end Quiesce
