/-!
# Phases

What an activity is asked to do: the two steps of a suspend attempt, and the single step of a
resume (`Phase`).
-/

namespace Quiesce

/-- A named step that is applied to every activity. -/
inductive Phase
  /-- First step of suspending. -/
  | prepare
  /-- Second step of suspending. -/
  | suspend
  /-- The only step of resuming. -/
  | resume
deriving DecidableEq, Repr

namespace Phase

def all : List Phase := [prepare, suspend, resume]

def label : Phase → String
  | prepare => "prepare"
  | suspend => "suspend"
  | resume => "resume"

def ofLabel? (s : String) : Option Phase :=
  all.find? fun p => p.label = s

end Phase

end Quiesce
