/-!
# Contexts

What the caller of a suspend or a resume says about the occasion. A context is handed to every
activity unchanged, and nothing else depends on it (`SuspendContext`, `ResumeContext`).
-/

namespace Quiesce

/-- The occasion of a suspend attempt. -/
structure SuspendContext where
  /-- The server is still booting. -/
  starting : Bool := false
  /-- The server will stop once it is suspended. -/
  stopping : Bool := false
deriving DecidableEq, Repr, Inhabited

structure ResumeContext where
  /-- This resume completes the boot of the server. -/
  starting : Bool := false
deriving DecidableEq, Repr, Inhabited

/-- The context in force before any suspend was requested. -/
def SuspendContext.boot : SuspendContext :=
  ⟨true, false⟩

/-- One mark set on the contexts that know it. -/
inductive ContextMark
  | starting (on : Bool)
  | stopping (on : Bool)
deriving DecidableEq, Repr

def SuspendContext.mark (c : SuspendContext) : ContextMark → SuspendContext
  | .starting b => ⟨b, c.stopping⟩
  | .stopping b => ⟨c.starting, b⟩

/-- A resume context has no `stopping` mark. -/
def ResumeContext.mark (c : ResumeContext) : ContextMark → ResumeContext
  | .starting b => ⟨b⟩
  | .stopping _ => c

end Quiesce
